import SoaHomework.MarketStore

/-!
# The marketplace's handlers

The request handlers of `main.py` that write products, orders and promo codes,
statement by statement. A payload carries what the generated models validate.
The `with` block of the order handlers is a savepoint inside the transaction
that `get_current_user` has opened; an error leaves it by an exception that no
handler catches, so it ends in the rollback of the closed session.
-/

namespace SoaHomework.Marketplace

open StatementProgram

/-! ## Payloads

The API description asks prices and discounts to exceed 0.01. A class generated from it
may round that bound, so that here they only need to be positive. -/

structure OrderItemCreate where
  productID : Uuid
  quantity : Int
  minimum : 1 ≤ quantity
  maximum : quantity ≤ 999

structure OrderCreateRequest where
  items : List OrderItemCreate
  promoCode : Option String
  minItems : 1 ≤ items.length
  maxItems : items.length ≤ 50

structure OrderUpdateRequest where
  items : List OrderItemCreate
  minItems : 1 ≤ items.length
  maxItems : items.length ≤ 50

structure ProductCreate where
  sellerID : Option Uuid
  name : String
  description : Option String
  price : ℚ
  stock : Int
  category : String
  status : ProductStatus
  priced : 0 < price
  nonneg : 0 ≤ stock

/-- A field of a payload that may be left out or given as `null`. -/
inductive Field (α : Type) where
  | absent
  | null
  | value (value : α)
deriving DecidableEq, Repr

structure ProductUpdate where
  name : Field String
  description : Field String
  price : Field ℚ
  stock : Field Int
  category : Field String
  status : Field ProductStatus
  priced : ∀ value, price = .value value → 0 < value
  nonneg : ∀ value, stock = .value value → 0 ≤ value

structure PromoCodeCreate where
  code : String
  discountType : DiscountType
  discountValue : ℚ
  minOrderAmount : ℚ
  maxUses : Int
  validFrom : Int
  validUntil : Int
  active : Option Bool
  discounted : 0 < discountValue
  nonneg : 0 ≤ minOrderAmount
  positive : 1 ≤ maxUses

structure Settings where
  orderRateLimitMinutes : Int

/-! ## Errors -/

/-- A line of the details of `INSUFFICIENT_STOCK`. -/
structure Shortage where
  productID : Uuid
  requested : Int
  available : Int
deriving DecidableEq, Repr

inductive Details where
  | none
  | items (items : List Shortage)
  | fields (fields : List (String × String))
deriving DecidableEq, Repr

structure ApiError where
  errorCode : String
  statusCode : Nat
  message : String
  details : Details
deriving DecidableEq, Repr

namespace ApiError

def tokenInvalid : ApiError := ⟨"TOKEN_INVALID", 401, "User not found", .none⟩

def accessDenied : ApiError := ⟨"ACCESS_DENIED", 403, "Access denied", .none⟩

def orderNotFound : ApiError := ⟨"ORDER_NOT_FOUND", 404, "Order not found", .none⟩

def orderOwnershipViolation : ApiError :=
  ⟨"ORDER_OWNERSHIP_VIOLATION", 403, "Order ownership violation", .none⟩

def invalidStateTransition : ApiError :=
  ⟨"INVALID_STATE_TRANSITION", 409, "Invalid state transition", .none⟩

def orderLimitExceeded : ApiError :=
  ⟨"ORDER_LIMIT_EXCEEDED", 429, "Order rate limit exceeded", .none⟩

def orderHasActive : ApiError := ⟨"ORDER_HAS_ACTIVE", 409, "User has active order", .none⟩

def productNotFound : ApiError := ⟨"PRODUCT_NOT_FOUND", 404, "Product not found", .none⟩

def productInactive : ApiError := ⟨"PRODUCT_INACTIVE", 409, "Product inactive", .none⟩

def insufficientStock (items : List Shortage) : ApiError :=
  ⟨"INSUFFICIENT_STOCK", 409, "Insufficient stock", .items items⟩

def promoCodeInvalid : ApiError := ⟨"PROMO_CODE_INVALID", 422, "Promo code invalid", .none⟩

def promoCodeMinAmount : ApiError :=
  ⟨"PROMO_CODE_MIN_AMOUNT", 422, "Order amount below promo minimum", .none⟩

def invalidSellerID : ApiError :=
  ⟨"VALIDATION_ERROR", 400, "Invalid seller_id",
    .fields [("seller_id", "Seller not found or has invalid role")]⟩

end ApiError

/-- An `ApiError`, or an error of the database that is answered with 500. -/
inductive HandlerError where
  | api (error : ApiError)
  | db (error : DbError)
deriving DecidableEq, Repr

structure OrderResponse where
  id : Uuid
  order : Order
  items : List OrderItem
deriving DecidableEq, Repr

inductive Response where
  | order (response : OrderResponse)
  | product (id : Uuid) (product : Product)
  | promo (id : Uuid) (promo : PromoCode)
  | noContent
deriving DecidableEq, Repr

abbrev Handler := Program Statement Answer HandlerError

def returnError {α : Type} : Except DbError α → Handler α
  | .ok result => .ret result
  | .error error => .fail (.db error)

def query (statement : Statement) : Handler (Result statement) := do
  returnError (← Program.perform statement)

def raise {α : Type} (error : ApiError) : Handler α := .fail (.api error)

def returnApi {α : Type} : Except ApiError α → Handler α
  | .ok value => .ret value
  | .error error => raise error

/-- The row that a handler requires. -/
def require {α : Type} (error : ApiError) : Option α → Handler α
  | some row => .ret row
  | none => raise error

/-! ## What the order handlers compute in memory -/

/-- `requested[product_id] = requested.get(product_id, 0) + quantity` -/
def addRequested (productID : Uuid) (quantity : Int) :
    List (Uuid × Int) → List (Uuid × Int)
  | [] => [(productID, quantity)]
  | (id, total) :: rest =>
      if id = productID then (id, total + quantity) :: rest
      else (id, total) :: addRequested productID quantity rest

/-- `requested`: the quantity of each product, in the order of first
    appearance. -/
def requestedTotals (items : List OrderItemCreate) : List (Uuid × Int) :=
  items.foldl (fun totals item => addRequested item.productID item.quantity totals) []

/-- Each requested product must exist and be active. -/
def checkProducts (products : ProductMap) : List (Uuid × Int) → Except ApiError Unit
  | [] => .ok ()
  | (id, _) :: rest =>
      match products.lookup id with
      | none => .error .productNotFound
      | some p =>
          if p.status = .active then checkProducts products rest else .error .productInactive

/-- `insufficient` -/
def shortages (products : ProductMap) (requested : List (Uuid × Int)) : List Shortage :=
  requested.filterMap fun (id, quantity) =>
    match products.lookup id with
    | some p => if p.stock < quantity then some ⟨id, quantity, p.stock⟩ else none
    | none => none

/-- `product_map[product_id].stock += change` -/
def addStock (products : ProductMap) (id : Uuid) (change : Int) : ProductMap :=
  match products.lookup id with
  | some p => products.insert id { p with stock := p.stock + change }
  | none => products

def deduct (products : ProductMap) (requested : List (Uuid × Int)) : ProductMap :=
  requested.foldl (fun products line => addStock products line.1 (-line.2)) products

/-- `product.stock += item.quantity` for the items whose product is found. -/
def giveBack (products : ProductMap) (items : List OrderItem) : ProductMap :=
  items.foldl (fun products item => addStock products item.productID item.quantity) products

/-- The new items at the prices of the products. -/
def priceItems (products : ProductMap) (items : List OrderItemCreate) : List ItemLine :=
  items.filterMap fun item => (products.lookup item.productID).map fun p =>
    ⟨item.productID, item.quantity, p.price⟩

def linesTotal (lines : List ItemLine) : ℚ :=
  (lines.map fun line => line.priceAtOrder * (line.quantity : ℚ)).sum

structure Placement where
  products : ProductMap
  lines : List ItemLine

/-- The checks and deductions that `create_order` and `update_order` share. -/
def placeItems (products : ProductMap) (items : List OrderItemCreate) :
    Except ApiError Placement := do
  let requested := requestedTotals items
  checkProducts products requested
  let insufficient := shortages products requested
  if insufficient.isEmpty then
    return ⟨deduct products requested, priceItems products items⟩
  else throw (.insufficientStock insufficient)

def validatePromoBasic (now : Int) (promo : PromoCode) (allowExhausted : Bool) :
    Except ApiError Unit :=
  let isExhausted := decide (promo.maxUses ≤ promo.currentUses)
  if promo.active = false ∨ (isExhausted = true ∧ allowExhausted = false) then
    .error .promoCodeInvalid
  else if promo.validFrom ≤ now ∧ now ≤ promo.validUntil then .ok ()
  else .error .promoCodeInvalid

def calculateDiscount (promo : PromoCode) (totalAmount : ℚ) : Except ApiError ℚ :=
  if totalAmount < promo.minOrderAmount then .error .promoCodeMinAmount
  else
    .ok <| match promo.discountType with
      | .percentage => min (totalAmount * promo.discountValue / 100) (totalAmount * (7 / 10))
      | .fixedAmount => min promo.discountValue totalAmount

/-! ## Flushing -/

/-- The products whose `stock` attribute has changed since it was loaded. -/
def changedStocks (loaded products : ProductMap) : List (Uuid × Int) :=
  products.entries.filterMap fun ⟨id, p⟩ =>
    if (loaded.lookup id).map Product.stock = some p.stock then none else some (id, p.stock)

def flushStocks : List (Uuid × Int) → Handler Unit
  | [] => .ret ()
  | (id, stock) :: rest => do
      query (.updateStock id stock)
      flushStocks rest

/-- Write `current_uses` when the attribute has changed. -/
def flushUses (promoID : Uuid) (promo : PromoCode) (uses : Int) : Handler Unit :=
  if uses = promo.currentUses then .ret () else query (.updateUses promoID uses)

/-- The assigned columns that differ from the loaded row. -/
def orderChange (loaded assigned : Order) : OrderChange where
  status := if assigned.status = loaded.status then none else some assigned.status
  promoCodeID :=
    if assigned.promoCodeID = loaded.promoCodeID then none else some assigned.promoCodeID
  totalAmount :=
    if assigned.totalAmount = loaded.totalAmount then none else some assigned.totalAmount
  discountAmount :=
    if assigned.discountAmount = loaded.discountAmount then none
    else some assigned.discountAmount

def flushOrder (id : Uuid) (loaded assigned : Order) : Handler Unit :=
  if assigned = loaded then .ret () else query (.updateOrder id (orderChange loaded assigned))

/-- `db.refresh(order)` and `_to_order_response(order)` -/
def orderResponse (id : Uuid) : Handler Response := do
  match ← query (.refreshOrder id) with
  | none => .fail (.db .noRows)
  | some order =>
      let items ← query (.selectItems id)
      return .order ⟨id, order, items⟩

/-! ## The handlers -/

/-- `require_roles(...)` over `get_current_user` for a verified token. -/
def requireRoles (roles : List UserRole) (subject : Uuid) : Handler User := do
  let user ← require .tokenInvalid (← query (.selectUser subject))
  if user.role ∈ roles then return user else raise .accessDenied

def checkRateLimit (settings : Settings) (userID : Uuid) (operationType : OperationType) :
    Handler Unit := do
  match ← query (.selectLastOperation userID operationType) with
  | none => return ()
  | some createdAt =>
      let now ← query .now
      Program.raiseIf (decide (now - createdAt < settings.orderRateLimitMinutes * 60000000))
        (.api .orderLimitExceeded)

/-- What `create_order` makes of a promo code: the promo, and the discount. -/
def applyPromo (code : String) (totalAmount : ℚ) : Handler (Uuid × PromoCode × ℚ) := do
  let (promoID, promo) ← require .promoCodeInvalid (← query (.selectPromoByCode code))
  let now ← query .now
  returnApi (validatePromoBasic now promo false)
  let discount ← returnApi (calculateDiscount promo totalAmount)
  return (promoID, promo, discount)

def createOrder (settings : Settings) (subject : Uuid) (payload : OrderCreateRequest) :
    Handler Response := do
  let _ ← requireRoles [.user, .admin] subject
  checkRateLimit settings subject .createOrder
  let active ← query (.selectActiveOrder subject)
  Program.raiseIf active.isSome (.api .orderHasActive)
  let products ← query (.selectProductsForUpdate ((requestedTotals payload.items).map Prod.fst))
  let placement ← returnApi (placeItems products payload.items)
  let total := linesTotal placement.lines
  match payload.promoCode with
  | none =>
      flushStocks (changedStocks products placement.products)
      finish placement ⟨subject, .created, none, total, 0⟩
  | some code =>
      let (promoID, promo, discount) ← applyPromo code total
      flushStocks (changedStocks products placement.products)
      flushUses promoID promo (promo.currentUses + 1)
      finish placement ⟨subject, .created, some promoID, total - discount, discount⟩
where
  /-- The inserts and the commit. -/
  finish (placement : Placement) (order : Order) : Handler Response := do
    let id ← query (.insertOrder order)
    query (.insertItems id placement.lines)
    query (.insertOperation subject .createOrder)
    query .commit
    orderResponse id

/-- `ORDER_NOT_FOUND` and `_require_order_owner` -/
def loadOrder (subject : Uuid) (user : User) (id : Uuid) : Handler Order := do
  let order ← require .orderNotFound (← query (.selectOrder id))
  Program.raiseIf (decide (user.role ≠ .admin) && decide (order.userID ≠ subject))
    (.api .orderOwnershipViolation)
  return order

/-- The ids of the products of the request and of the present items, each
    once. -/
def updateProductIDs (requested : List (Uuid × Int)) (items : List OrderItem) : List Uuid :=
  (requested.map Prod.fst ++ items.map OrderItem.productID).dedup

def updateOrder (settings : Settings) (subject id : Uuid) (payload : OrderUpdateRequest) :
    Handler Response := do
  let user ← requireRoles [.user, .admin] subject
  let order ← loadOrder subject user id
  Program.raiseIf (decide (order.status ≠ .created)) (.api .invalidStateTransition)
  checkRateLimit settings subject .updateOrder
  let items ← query (.selectItems id)
  let products ← query (.selectProductsForUpdate
    (updateProductIDs (requestedTotals payload.items) items))
  let placement ← returnApi (placeItems (giveBack products items) payload.items)
  let total := linesTotal placement.lines
  match order.promoCodeID with
  | none =>
      flushStocks (changedStocks products placement.products)
      finish order items placement { order with totalAmount := total, discountAmount := 0 }
  | some promoID =>
      let promo ← require .promoCodeInvalid (← query (.selectPromo promoID))
      let now ← query .now
      returnApi (validatePromoBasic now promo true)
      if total < promo.minOrderAmount then
        let uses := if 0 < promo.currentUses then promo.currentUses - 1 else promo.currentUses
        flushStocks (changedStocks products placement.products)
        flushUses promoID promo uses
        finish order items placement
          { order with promoCodeID := none, totalAmount := total, discountAmount := 0 }
      else
        let discount ← returnApi (calculateDiscount promo total)
        flushStocks (changedStocks products placement.products)
        finish order items placement
          { order with totalAmount := total - discount, discountAmount := discount }
where
  /-- The writes to the order and the commit. -/
  finish (order : Order) (items : List OrderItem) (placement : Placement) (assigned : Order) :
      Handler Response := do
    flushOrder id order assigned
    query (.insertItems id placement.lines)
    query (.deleteItems id (items.map OrderItem.id))
    query (.insertOperation subject .updateOrder)
    query .commit
    orderResponse id

def cancelOrder (subject id : Uuid) : Handler Response := do
  let user ← requireRoles [.user, .admin] subject
  let order ← loadOrder subject user id
  Program.raiseIf (!order.status.isActive) (.api .invalidStateTransition)
  let items ← query (.selectItems id)
  let products ← query (.selectProductsForUpdate (items.map OrderItem.productID))
  let returned := giveBack products items
  match order.promoCodeID with
  | none =>
      flushStocks (changedStocks products returned)
      finish order
  | some promoID =>
      match ← query (.selectPromo promoID) with
      | none =>
          flushStocks (changedStocks products returned)
          finish order
      | some promo =>
          let uses := if 0 < promo.currentUses then promo.currentUses - 1 else promo.currentUses
          flushStocks (changedStocks products returned)
          flushUses promoID promo uses
          finish order
where
  finish (order : Order) : Handler Response := do
    flushOrder id order { order with status := .canceled }
    query .commit
    orderResponse id

/-- The seller that `create_product` records. -/
def productSeller (subject : Uuid) (user : User) (payload : ProductCreate) : Handler Uuid := do
  match payload.sellerID with
  | none => return subject
  | some sellerID =>
      if user.role = .admin then
        match ← query (.selectUser sellerID) with
        | some seller => if seller.role = .seller then return sellerID else raise .invalidSellerID
        | none => raise .invalidSellerID
      else
        Program.raiseIf (decide (user.role = .seller) && decide (sellerID ≠ subject))
          (.api .accessDenied)
        return subject

def productResponse (id : Uuid) : Handler Response := do
  match ← query (.refreshProduct id) with
  | none => .fail (.db .noRows)
  | some product => return .product id product

def createProduct (subject : Uuid) (payload : ProductCreate) : Handler Response := do
  let user ← requireRoles [.seller, .admin] subject
  let sellerID ← productSeller subject user payload
  let id ← query (.insertProduct ⟨payload.name, payload.description, payload.price,
    payload.stock, payload.category, payload.status, sellerID⟩)
  query .commit
  productResponse id

/-- `PRODUCT_NOT_FOUND` and `_require_product_owner` -/
def loadProduct (subject : Uuid) (user : User) (id : Uuid) : Handler Product := do
  let product ← require .productNotFound (← query (.selectProduct id))
  Program.raiseIf (decide (user.role = .seller) && decide (product.sellerID ≠ subject))
    (.api .accessDenied)
  return product

/-- `setattr` of a field of `model_dump(exclude_unset=True)`, as the flush sees
    it: a value equal to the loaded one is no change. -/
def assignField {α : Type} [DecidableEq α] (field : Field α) (old : α) : Option (Option α) :=
  match field with
  | .absent => none
  | .null => some none
  | .value value => if value = old then none else some (some value)

/-- The same for the nullable column. -/
def assignNullable {α : Type} [DecidableEq α] (field : Field α) (old : Option α) :
    Option (Option α) :=
  match field with
  | .absent => none
  | .null => if old = none then none else some none
  | .value value => if old = some value then none else some (some value)

def productChange (payload : ProductUpdate) (product : Product) : ProductChange where
  name := assignField payload.name product.name
  description := assignNullable payload.description product.description
  price := assignField payload.price product.price
  stock := assignField payload.stock product.stock
  category := assignField payload.category product.category
  status := assignField payload.status product.status

def flushProduct (id : Uuid) (change : ProductChange) : Handler Unit :=
  if change = ⟨none, none, none, none, none, none⟩ then .ret ()
  else query (.updateProduct id change)

def updateProduct (subject id : Uuid) (payload : ProductUpdate) : Handler Response := do
  let user ← requireRoles [.seller, .admin] subject
  let product ← loadProduct subject user id
  flushProduct id (productChange payload product)
  query .commit
  productResponse id

def deleteProduct (subject id : Uuid) : Handler Response := do
  let user ← requireRoles [.seller, .admin] subject
  let product ← loadProduct subject user id
  flushProduct id ⟨none, none, none, none, none, assignField (.value .archived) product.status⟩
  query .commit
  return .noContent

def createPromoCode (subject : Uuid) (payload : PromoCodeCreate) : Handler Response := do
  let _ ← requireRoles [.seller, .admin] subject
  let id ← query (.insertPromo ⟨payload.code, payload.discountType, payload.discountValue,
    payload.minOrderAmount, payload.maxUses, 0, payload.validFrom, payload.validUntil,
    payload.active.getD true⟩)
  query .commit
  match ← query (.refreshPromo id) with
  | none => .fail (.db .noRows)
  | some promo => return .promo id promo

/-! ## The service -/

/-- A request with the subject of its access token. -/
inductive Request where
  | createProduct (subject : Uuid) (payload : ProductCreate)
  | updateProduct (subject id : Uuid) (payload : ProductUpdate)
  | deleteProduct (subject id : Uuid)
  | createOrder (subject : Uuid) (payload : OrderCreateRequest)
  | updateOrder (subject id : Uuid) (payload : OrderUpdateRequest)
  | cancelOrder (subject id : Uuid)
  | createPromoCode (subject : Uuid) (payload : PromoCodeCreate)

def handle (settings : Settings) : Request → Handler Response
  | .createProduct subject payload => createProduct subject payload
  | .updateProduct subject id payload => updateProduct subject id payload
  | .deleteProduct subject id => deleteProduct subject id
  | .createOrder subject payload => createOrder settings subject payload
  | .updateOrder subject id payload => updateOrder settings subject id payload
  | .cancelOrder subject id => cancelOrder subject id
  | .createPromoCode subject payload => createPromoCode subject payload

/-- The clock shows another time. -/
structure Tick where
  clock : Int

def service (settings : Settings) :
    Service Statement Answer HandlerError Response Request Choice Tick State where
  handler := handle settings
  exec := execute
  -- `get_db` closes the session, which rolls an open transaction back
  close i s := (s.withDb (s.db.rollback i)).withSession i .empty
  outside tick s := some { s with clock := tick.clock }

abbrev MarketPool := Pool Statement Answer HandlerError Response Request State

abbrev MarketEvent := Event Request Choice Tick

end SoaHomework.Marketplace
