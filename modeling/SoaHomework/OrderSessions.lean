import SoaHomework.Marketplace
import SoaHomework.OrmSession

/-!
# The sessions of the order handlers

`create_order`, `update_order` and `cancel_order` once more, this time with the
SQLAlchemy session in the foreground: objects are assigned in memory as the source
assigns them, before later checks can still raise, and the `with` block of each
handler is a savepoint or a transaction of its own, as `has_active_transaction`
decides. The request has the database to itself here.
-/

namespace SoaHomework.OrderSessions

open FallibleState OrmSession Marketplace

/-- The columns of the tables that the order handlers write. -/
def schema : Schema Key Row HandlerError where
  stored
    | .product _, product => Product.stored product
    | .promo _, promo => PromoCode.stored promo
    | .order _, order => Order.stored order
    | .user _, user => user
    | .items _, items => items
    | .operation _, operation => operation
  fits
    | .product _, product => Product.fits product
    | .promo _, promo => PromoCode.fits promo
    | .order _, order => Order.fits order
    | _, _ => true
  outOfRange := .db .outOfRange
  duplicateKey := .db .uniqueViolation
  alreadyBegun := .db .failure

abbrev SessionHandler := Orm Key Row HandlerError

/-- What a request takes from the clock and from `uuid4()`. -/
structure Draws where
  /-- `datetime.now(timezone.utc)` in `_check_rate_limit` -/
  rateCheckedAt : Int
  /-- `datetime.now(timezone.utc)` in `_validate_promo_basic` -/
  promoCheckedAt : Int
  /-- `func.now()`, the start of the transaction -/
  began : Int
  orderID : Uuid
  operationID : Uuid
  itemID : Nat → Uuid

/-- The new `OrderItem` objects. -/
def Draws.items (draws : Draws) (lines : List ItemLine) : List OrderItem :=
  lines.mapIdx fun n line => ⟨draws.itemID n, line.productID, line.quantity, line.priceAtOrder⟩

def raiseApi {α : Type} (error : ApiError) : SessionHandler α := throw (.api error)

def returnApi {α : Type} : Except ApiError α → SessionHandler α
  | .ok value => pure value
  | .error error => raiseApi error

def require {α : Type} (error : ApiError) : Option α → SessionHandler α
  | some row => pure row
  | none => raiseApi error

/-- `get_current_user` and `require_roles(...)`, on the session of the handler. -/
def requireRoles (roles : List UserRole) (subject : Uuid) : SessionHandler User := do
  let user ← require .tokenInvalid (← select fun rows => rows.lookup (.user subject))
  raiseIf (decide (user.role ∉ roles)) (.api .accessDenied)
  return user

/-- The `with` block of the three handlers and the commit after it. -/
def inTransactionContext {α : Type} (body : SessionHandler α) : SessionHandler α := do
  let hasActiveTransaction ← inTransaction
  let transactionContext := if hasActiveTransaction then beginNested schema else begin schema
  let result ← within transactionContext body
  let active ← inTransaction
  if hasActiveTransaction && active then commit schema else pure ()
  return result

def checkRateLimit (settings : Settings) (draws : Draws) (userID : Uuid)
    (operationType : OperationType) : SessionHandler Unit := do
  match ← select fun rows => lastOperation rows userID operationType with
  | none => return ()
  | some createdAt =>
      raiseIf (decide (draws.rateCheckedAt - createdAt <
        settings.orderRateLimitMinutes * 60000000)) (.api .orderLimitExceeded)

/-- The keys of `product_map`. -/
def selectProductsForUpdate (ids : List Uuid) : SessionHandler (List Uuid) :=
  select fun rows => (productMap rows ids).keys

/-- `product_map[product_id].stock += change` -/
def addStock (id : Uuid) (change : Int) : SessionHandler Unit := do
  match ← inspect fun objects => objects.lookup (.product id) with
  | none => return ()
  | some product => assign (.product id) { product with stock := product.stock + change }

/-- `product.stock += item.quantity` for the items whose product is found. -/
def giveBack (productIDs : List Uuid) (items : List OrderItem) : SessionHandler Unit :=
  items.forM fun item =>
    if item.productID ∈ productIDs then addStock item.productID item.quantity else pure ()

/-- The checks and deductions that `create_order` and `update_order` share. -/
def placeItems (productIDs : List Uuid) (items : List OrderItemCreate) :
    SessionHandler (List ItemLine) := do
  let requested := requestedTotals items
  let products ← inspect fun objects => productMap objects productIDs
  returnApi (checkProducts products requested)
  let insufficient := shortages products requested
  raiseIf (!insufficient.isEmpty) (.api (.insufficientStock insufficient))
  requested.forM fun line => addStock line.1 (-line.2)
  inspect fun objects => priceItems (productMap objects productIDs) items

/-- `db.refresh(order)` and `_to_order_response(order)` -/
def orderResponse (id : Uuid) : SessionHandler OrderResponse := do
  match ← select fun rows => rows.lookup (.order id) with
  | none => throw (.db .noRows)
  | some order =>
      let items ← select fun rows => itemsOf rows id
      return ⟨id, order, items⟩

/-- The order that `create_order` makes. -/
def newOrder (draws : Draws) (userID : Uuid) (totalAmount : ℚ) :
    Option String → SessionHandler Order
  | none => return ⟨userID, .created, none, totalAmount, 0⟩
  | some code => do
      let (promoID, promo) ← require .promoCodeInvalid
        (← select fun rows => promoByCode rows code)
      returnApi (validatePromoBasic draws.promoCheckedAt promo false)
      let discount ← returnApi (calculateDiscount promo totalAmount)
      assign (.promo promoID) { promo with currentUses := promo.currentUses + 1 }
      return ⟨userID, .created, some promoID, totalAmount - discount, discount⟩

def createOrder (settings : Settings) (draws : Draws) (userID : Uuid)
    (payload : OrderCreateRequest) : SessionHandler OrderResponse := do
  inTransactionContext do
    checkRateLimit settings draws userID .createOrder
    let activeOrder ← select fun rows => activeOrder rows userID
    raiseIf activeOrder.isSome (.api .orderHasActive)
    let productIDs ← selectProductsForUpdate ((requestedTotals payload.items).map Prod.fst)
    let orderItems ← placeItems productIDs payload.items
    let totalAmount := linesTotal orderItems
    let order ← newOrder draws userID totalAmount payload.promoCode
    add (.order draws.orderID) order
    add (.items draws.orderID) (draws.items orderItems)
    add (.operation draws.operationID) ⟨userID, .createOrder, draws.began⟩
  orderResponse draws.orderID

/-- `ORDER_NOT_FOUND` and `_require_order_owner` -/
def loadOrder (userID : Uuid) (user : User) (id : Uuid) : SessionHandler Order := do
  let order ← require .orderNotFound (← select fun rows => rows.lookup (.order id))
  raiseIf (decide (user.role ≠ .admin) && decide (order.userID ≠ userID))
    (.api .orderOwnershipViolation)
  return order

/-- `if promo.current_uses > 0: promo.current_uses -= 1` -/
def releaseUse (promoID : Uuid) (promo : PromoCode) : SessionHandler Unit :=
  if 0 < promo.currentUses then
    assign (.promo promoID) { promo with currentUses := promo.currentUses - 1 }
  else pure ()

/-- What `update_order` does about the promo code that the order has. -/
def revalidatePromo (draws : Draws) (id : Uuid) (order : Order) (totalAmount : ℚ) :
    Option Uuid → SessionHandler Unit
  | none => return ()
  | some promoID => do
      let promo ← require .promoCodeInvalid (← select fun rows => rows.lookup (.promo promoID))
      returnApi (validatePromoBasic draws.promoCheckedAt promo true)
      if totalAmount < promo.minOrderAmount then do
        releaseUse promoID promo
        assign (.order id)
          { order with promoCodeID := none, totalAmount := totalAmount, discountAmount := 0 }
      else do
        let discount ← returnApi (calculateDiscount promo totalAmount)
        assign (.order id)
          { order with totalAmount := totalAmount - discount, discountAmount := discount }

def updateOrder (settings : Settings) (draws : Draws) (userID : Uuid) (user : User) (id : Uuid)
    (payload : OrderUpdateRequest) : SessionHandler OrderResponse := do
  let order ← loadOrder userID user id
  raiseIf (decide (order.status ≠ .created)) (.api .invalidStateTransition)
  inTransactionContext do
    checkRateLimit settings draws userID .updateOrder
    let items ← select fun rows => itemsOf rows id
    let productIDs ← selectProductsForUpdate
      (updateProductIDs (requestedTotals payload.items) items)
    giveBack productIDs items
    let newItems ← placeItems productIDs payload.items
    let totalAmount := linesTotal newItems
    assign (.items id) (draws.items newItems)
    assign (.order id) { order with totalAmount := totalAmount, discountAmount := 0 }
    revalidatePromo draws id order totalAmount order.promoCodeID
    add (.operation draws.operationID) ⟨userID, .updateOrder, draws.began⟩
  orderResponse id

/-- The use that `cancel_order` gives back. -/
def releasePromo : Option Uuid → SessionHandler Unit
  | none => return ()
  | some promoID => do
      match ← select fun rows => rows.lookup (.promo promoID) with
      | none => return ()
      | some promo => releaseUse promoID promo

def cancelOrder (userID : Uuid) (user : User) (id : Uuid) : SessionHandler OrderResponse := do
  let order ← loadOrder userID user id
  raiseIf (!order.status.isActive) (.api .invalidStateTransition)
  inTransactionContext do
    let items ← select fun rows => itemsOf rows id
    let productIDs ← selectProductsForUpdate (items.map OrderItem.productID)
    giveBack productIDs items
    releasePromo order.promoCodeID
    assign (.order id) { order with status := .canceled }
  orderResponse id

inductive OrderRequest where
  | createOrder (payload : OrderCreateRequest)
  | updateOrder (id : Uuid) (payload : OrderUpdateRequest)
  | cancelOrder (id : Uuid)

/-- The handler of a request of `user`, whose id is `userID`. -/
def handle (settings : Settings) (draws : Draws) (userID : Uuid) (user : User) :
    OrderRequest → SessionHandler OrderResponse
  | .createOrder payload => createOrder settings draws userID payload
  | .updateOrder id payload => updateOrder settings draws userID user id payload
  | .cancelOrder id => cancelOrder userID user id

/-! ## What the handlers keep -/

section Keeping

variable {before : Rows}

theorem keeps_returnApi {α : Type} (result : Except ApiError α) (inv : Session Key Row → Prop) :
    Keeps inv (returnApi result) := by
  cases result with
  | ok value => exact Keeps.pure value
  | error error => exact Keeps.throw _

theorem keeps_require {α : Type} (error : ApiError) (row : Option α)
    (inv : Session Key Row → Prop) : Keeps inv (require error row) := by
  cases row with
  | none => exact Keeps.throw _
  | some row => exact Keeps.pure row

theorem keeps_checkRateLimit (settings : Settings) (draws : Draws) (userID : Uuid)
    (operationType : OperationType) :
    Keeps (Tracks schema before) (checkRateLimit settings draws userID operationType) := by
  apply Keeps.bind
  · exact keeps_select _
  · intro last
    cases last with
    | none => exact Keeps.pure ()
    | some createdAt => exact Keeps.raiseIf _ _

theorem keeps_addStock (id : Uuid) (change : Int) :
    Keeps (Tracks schema before) (addStock id change) := by
  apply Keeps.bind
  · exact keeps_inspect _ _
  · intro product
    cases product with
    | none => exact Keeps.pure ()
    | some product => exact keeps_assign _ _

theorem keeps_giveBack (productIDs : List Uuid) (items : List OrderItem) :
    Keeps (Tracks schema before) (giveBack productIDs items) := by
  apply Keeps.forM
  intro item
  apply Keeps.ite
  · exact keeps_addStock _ _
  · exact Keeps.pure ()

/-- Nothing that a check raises before, between or after the deductions is an
    exception to this. -/
theorem keeps_placeItems (productIDs : List Uuid) (items : List OrderItemCreate) :
    Keeps (Tracks schema before) (placeItems productIDs items) := by
  apply Keeps.bind
  · exact keeps_inspect _ _
  · intro products
    apply Keeps.bind
    · exact keeps_returnApi _ _
    · intro _
      apply Keeps.bind
      · exact Keeps.raiseIf _ _
      · intro _
        apply Keeps.bind
        · exact Keeps.forM fun line => keeps_addStock _ _
        · intro _
          exact keeps_inspect _ _

theorem keeps_newOrder (draws : Draws) (userID : Uuid) (totalAmount : ℚ)
    (promoCode : Option String) :
    Keeps (Tracks schema before) (newOrder draws userID totalAmount promoCode) := by
  cases promoCode with
  | none => exact Keeps.pure _
  | some code =>
      apply Keeps.bind
      · exact keeps_select _
      · intro found
        apply Keeps.bind
        · exact keeps_require _ _ _
        · rintro ⟨promoID, promo⟩
          apply Keeps.bind
          · exact keeps_returnApi _ _
          · intro _
            apply Keeps.bind
            · exact keeps_returnApi _ _
            · intro discount
              apply Keeps.bind
              · exact keeps_assign _ _
              · intro _
                exact Keeps.pure _

theorem keeps_loadOrder (userID : Uuid) (user : User) (id : Uuid) :
    Keeps (Tracks schema before) (loadOrder userID user id) := by
  apply Keeps.bind
  · exact keeps_select _
  · intro found
    apply Keeps.bind
    · exact keeps_require _ _ _
    · intro order
      apply Keeps.bind
      · exact Keeps.raiseIf _ _
      · intro _
        exact Keeps.pure order

theorem keeps_releaseUse (promoID : Uuid) (promo : PromoCode) :
    Keeps (Tracks schema before) (releaseUse promoID promo) := by
  apply Keeps.ite
  · exact keeps_assign _ _
  · exact Keeps.pure ()

theorem keeps_revalidatePromo (draws : Draws) (id : Uuid) (order : Order) (totalAmount : ℚ)
    (promoCodeID : Option Uuid) :
    Keeps (Tracks schema before) (revalidatePromo draws id order totalAmount promoCodeID) := by
  cases promoCodeID with
  | none => exact Keeps.pure ()
  | some promoID =>
      apply Keeps.bind
      · exact keeps_select _
      · intro found
        apply Keeps.bind
        · exact keeps_require _ _ _
        · intro promo
          apply Keeps.bind
          · exact keeps_returnApi _ _
          · intro _
            apply Keeps.ite
            · apply Keeps.bind
              · exact keeps_releaseUse _ _
              · intro _
                exact keeps_assign _ _
            · apply Keeps.bind
              · exact keeps_returnApi _ _
              · intro discount
                exact keeps_assign _ _

theorem keeps_releasePromo (promoCodeID : Option Uuid) :
    Keeps (Tracks schema before) (releasePromo promoCodeID) := by
  cases promoCodeID with
  | none => exact Keeps.pure ()
  | some promoID =>
      apply Keeps.bind
      · exact keeps_select _
      · intro found
        cases found with
        | none => exact Keeps.pure ()
        | some promo => exact keeps_releaseUse _ _

/-- An `ApiError` is raised before anything is committed. -/
def Uncommitted (before : Rows) (error : HandlerError) (s : Session Key Row) : Prop :=
  ∀ api, error = .api api → Unpublished before s

/-- In both branches of `has_active_transaction` the body is committed as a whole
    or not at all. -/
theorem inTransactionContext_spec {α : Type} {body : SessionHandler α}
    (hbody : Keeps (Tracks schema before) body) :
    Triple (Tracks schema before) (inTransactionContext body)
      (fun _ => Committed schema before) fun _ => Unpublished before := by
  apply Triple.bind (fun active s => Tracks schema before s ∧ s.transaction.isSome = active)
  · exact Triple.observe fun _ hs => ⟨hs, rfl⟩
  · intro hasActiveTransaction
    cases hasActiveTransaction with
    | false =>
        apply Triple.bind (fun _ => Committed schema before)
        · exact within_begin hbody
        · intro result
          apply Triple.bind (fun _ => Committed schema before)
          · exact Triple.observe fun _ hs => hs
          · intro active
            exact Triple.pure fun _ hs => hs
    | true =>
        apply Triple.bind (fun _ s => Tracks schema before s ∧ s.transaction.isSome = true)
        · apply (within_beginNested hbody).mono
          · exact fun _ hs => hs.1
          · exact fun _ _ hs => hs
          · exact fun _ _ hs => hs
        · intro result
          apply Triple.bind (fun active s => Tracks schema before s ∧ active = true)
          · exact Triple.observe fun _ hs => hs
          · intro active
            cases active with
            | false => exact fun _ hs => absurd hs.2 Bool.false_ne_true
            | true =>
                apply Triple.bind (fun _ => Committed schema before)
                · apply commit_spec.mono
                  · exact fun _ hs => hs.1
                  · exact fun _ _ hs => hs
                  · exact fun _ _ hs => hs
                · intro _
                  exact Triple.pure fun _ hs => hs

theorem orderResponse_spec (id : Uuid) :
    Triple (Committed schema before) (orderResponse id) (fun _ => Committed schema before)
      (Uncommitted before) := by
  apply Triple.bind (fun _ => Committed schema before)
  · exact Committed.select _ _
  · intro found
    cases found with
    | none =>
        apply Triple.throw
        intro s hs api happi
        cases happi
    | some order =>
        apply Triple.bind (fun _ => Committed schema before)
        · exact Committed.select _ _
        · intro items
          exact Triple.pure fun _ hs => hs

/-- The commit, and the response after it. -/
theorem respond_spec {α : Type} {body : SessionHandler α} (id : Uuid)
    (hbody : Keeps (Tracks schema before) body) :
    Triple (Tracks schema before) (inTransactionContext body >>= fun _ => orderResponse id)
      (fun _ => Committed schema before) (Uncommitted before) := by
  apply Triple.bind (fun _ => Committed schema before)
  · apply (inTransactionContext_spec hbody).mono
    · exact fun _ hs => hs
    · exact fun _ _ hs => hs
    · exact fun _ _ hs _ _ => hs
  · intro _
    exact orderResponse_spec id

theorem createOrder_spec (settings : Settings) (draws : Draws) (userID : Uuid)
    (payload : OrderCreateRequest) :
    Triple (Tracks schema before) (createOrder settings draws userID payload)
      (fun _ => Committed schema before) (Uncommitted before) := by
  apply respond_spec
  apply Keeps.bind
  · exact keeps_checkRateLimit _ _ _ _
  · intro _
    apply Keeps.bind
    · exact keeps_select _
    · intro activeOrder
      apply Keeps.bind
      · exact Keeps.raiseIf _ _
      · intro _
        apply Keeps.bind
        · exact keeps_select _
        · intro productIDs
          apply Keeps.bind
          · exact keeps_placeItems _ _
          · intro orderItems
            apply Keeps.bind
            · exact keeps_newOrder _ _ _ _
            · intro order
              apply Keeps.bind
              · exact keeps_add _ _
              · intro _
                apply Keeps.bind
                · exact keeps_add _ _
                · intro _
                  exact keeps_add _ _

/-- A load and a check before the transaction. -/
theorem loaded_spec {program : Order → SessionHandler OrderResponse} (userID : Uuid)
    (user : User) (id : Uuid)
    (hprogram : ∀ order, Triple (Tracks schema before) (program order)
      (fun _ => Committed schema before) (Uncommitted before))
    (refused : Order → Bool) :
    Triple (Tracks schema before)
      (loadOrder userID user id >>= fun order =>
        raiseIf (refused order) (.api .invalidStateTransition) >>= fun _ => program order)
      (fun _ => Committed schema before) (Uncommitted before) := by
  have hearly : ∀ {α : Type} {m : SessionHandler α}, Keeps (Tracks schema before) m →
      Triple (Tracks schema before) m (fun _ => Tracks schema before) (Uncommitted before) := by
    intro α m hm
    apply hm.mono
    · exact fun _ hs => hs
    · exact fun _ _ hs => hs
    · exact fun _ _ hs _ _ => hs.toUnpublished
  apply Triple.bind (fun _ => Tracks schema before)
  · exact hearly (keeps_loadOrder userID user id)
  · intro order
    apply Triple.bind (fun _ => Tracks schema before)
    · exact hearly (Keeps.raiseIf _ _)
    · intro _
      exact hprogram order

theorem updateOrder_spec (settings : Settings) (draws : Draws) (userID : Uuid) (user : User)
    (id : Uuid) (payload : OrderUpdateRequest) :
    Triple (Tracks schema before) (updateOrder settings draws userID user id payload)
      (fun _ => Committed schema before) (Uncommitted before) := by
  apply loaded_spec
  intro order
  apply respond_spec
  apply Keeps.bind
  · exact keeps_checkRateLimit _ _ _ _
  · intro _
    apply Keeps.bind
    · exact keeps_select _
    · intro items
      apply Keeps.bind
      · exact keeps_select _
      · intro productIDs
        apply Keeps.bind
        · exact keeps_giveBack _ _
        · intro _
          apply Keeps.bind
          · exact keeps_placeItems _ _
          · intro newItems
            apply Keeps.bind
            · exact keeps_assign _ _
            · intro _
              apply Keeps.bind
              · exact keeps_assign _ _
              · intro _
                apply Keeps.bind
                · exact keeps_revalidatePromo _ _ _ _ _
                · intro _
                  exact keeps_add _ _

theorem cancelOrder_spec (userID : Uuid) (user : User) (id : Uuid) :
    Triple (Tracks schema before) (cancelOrder userID user id)
      (fun _ => Committed schema before) (Uncommitted before) := by
  apply loaded_spec
  intro order
  apply respond_spec
  apply Keeps.bind
  · exact keeps_select _
  · intro items
    apply Keeps.bind
    · exact keeps_select _
    · intro productIDs
      apply Keeps.bind
      · exact keeps_giveBack _ _
      · intro _
        apply Keeps.bind
        · exact keeps_releasePromo _
        · intro _
          exact keeps_assign _ _

theorem handle_spec (settings : Settings) (draws : Draws) (userID : Uuid) (user : User)
    (request : OrderRequest) :
    Triple (Tracks schema before) (handle settings draws userID user request)
      (fun _ => Committed schema before) (Uncommitted before) := by
  cases request with
  | createOrder payload => exact createOrder_spec _ _ _ _
  | updateOrder id payload => exact updateOrder_spec _ _ _ _ _ _
  | cancelOrder id => exact cancelOrder_spec _ _ _

end Keeping

/-! ## Whole requests -/

/-- A request of the order handlers that ends with an `ApiError` leaves the
    committed rows alone, and one that returns has committed everything it has
    assigned, at once. -/
theorem order_requests_all_or_nothing (settings : Settings) (draws : Draws) (userID : Uuid)
    (user : User) (request : OrderRequest) (database : Rows) (active : Bool) :
    match serve (handle settings draws userID user request)
        (Session.opened database active) with
    | (.error error, s) =>
        ∀ api, error = .api api → s.database = database ∧ s.published = []
    | (.ok _, s) =>
        s.published = [s.database] ∧
          ∀ k, s.database.lookup k =
            ((s.assigned.lookup k).map (schema.stored k)).or (database.lookup k) := by
  have hhandler : Triple (Tracks schema database) (handle settings draws userID user request)
      (fun _ => Committed schema database) (Uncommitted database) :=
    handle_spec settings draws userID user request
  have h := serve_spec (tracks_opened active) hhandler
    fun error s hraised api happi => ⟨(hraised api happi).database, (hraised api happi).published⟩
  cases hserve : serve (handle settings draws userID user request)
      (Session.opened database active) with
  | mk result s =>
      rw [hserve] at h
      cases result with
      | error error => exact fun api happi => ⟨(h api happi).database, (h api happi).published⟩
      | ok response => exact ⟨h.once, h.rows⟩

/-- An order of two kettles, none of which is left. -/
def soldOut : Rows :=
  ((((∅ : Rows).insert (.user 2) ⟨.user⟩).insert (.product 10)
    ⟨"Kettle", none, 40, 0, "kitchen", .active, 3⟩).insert (.order 200)
    ⟨2, .created, none, 80, 0⟩).insert (.items 200) [⟨201, 10, 2, 40⟩]

/-- The stock that a change to three kettles returns before it is refused does not
    reach the database. -/
example :
    let served := serve (handle ⟨5⟩ ⟨0, 0, 0, 300, 301, fun n => 302 + n⟩ 2 ⟨.user⟩
      (.updateOrder 200 ⟨[⟨10, 3, by decide, by decide⟩], by decide, by decide⟩))
      (Session.opened soldOut true)
    served.1 = .error (.api (.insufficientStock [⟨10, 3, 2⟩])) ∧
      ((served.2.assigned.lookup (.product 10)).map Product.stock) = some 2 ∧
      ((served.2.database.lookup (.product 10)).map Product.stock) = some 0 := by
  decide +kernel

end SoaHomework.OrderSessions
