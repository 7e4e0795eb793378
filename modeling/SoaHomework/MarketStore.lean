import Mathlib.Algebra.Order.Round
import Mathlib.Data.Rat.Floor
import SoaHomework.Interleaving
import SoaHomework.RowTransactions

/-!
# The marketplace's store

The tables of the marketplace and the statements that a SQLAlchemy session
sends for the handlers of `main.py`. The rows of `order_items` of one order are
kept together under the key of the order. A request is one session: it opens a
transaction with its first statement (`autocommit=False`), nothing is flushed
before the handler's own flush (`autoflush=False`), and a row that the session
has loaded without a lock is not read again before the commit. `Session` keeps
those loaded rows.
-/

namespace SoaHomework.Marketplace

open StatementProgram

abbrev Uuid := Nat

inductive UserRole where
  | user
  | seller
  | admin
deriving DecidableEq, Repr

inductive ProductStatus where
  | active
  | inactive
  | archived
deriving DecidableEq, Repr

inductive OrderStatus where
  | created
  | paymentPending
  | paid
  | shipped
  | completed
  | canceled
deriving DecidableEq, Repr

inductive DiscountType where
  | percentage
  | fixedAmount
deriving DecidableEq, Repr

inductive OperationType where
  | createOrder
  | updateOrder
deriving DecidableEq, Repr

structure User where
  role : UserRole
deriving DecidableEq, Repr

structure Product where
  name : String
  description : Option String
  price : ℚ
  stock : Int
  category : String
  status : ProductStatus
  sellerID : Uuid
deriving DecidableEq, Repr

structure PromoCode where
  code : String
  discountType : DiscountType
  discountValue : ℚ
  minOrderAmount : ℚ
  maxUses : Int
  currentUses : Int
  validFrom : Int
  validUntil : Int
  active : Bool
deriving DecidableEq, Repr

structure Order where
  userID : Uuid
  status : OrderStatus
  promoCodeID : Option Uuid
  totalAmount : ℚ
  discountAmount : ℚ
deriving DecidableEq, Repr

structure OrderItem where
  id : Uuid
  productID : Uuid
  quantity : Int
  priceAtOrder : ℚ
deriving DecidableEq, Repr

/-- Times are in microseconds since the epoch. -/
structure UserOperation where
  userID : Uuid
  operationType : OperationType
  createdAt : Int
deriving DecidableEq, Repr

/-- `status IN (CREATED, PAYMENT_PENDING)` -/
def OrderStatus.isActive : OrderStatus → Bool
  | .created => true
  | .paymentPending => true
  | _ => false

inductive Key where
  | user (id : Uuid)
  | product (id : Uuid)
  | promo (id : Uuid)
  | order (id : Uuid)
  /-- The rows of `order_items` with this `order_id`. -/
  | items (orderID : Uuid)
  | operation (id : Uuid)
deriving DecidableEq, Repr

@[reducible] def Row : Key → Type
  | .user _ => User
  | .product _ => Product
  | .promo _ => PromoCode
  | .order _ => Order
  | .items _ => List OrderItem
  | .operation _ => UserOperation

/-- `UNIQUE (code)` of `promo_codes`. -/
def codeIndex : (k : Key) → Row k → Option String
  | .promo _, p => some p.code
  | _, _ => none

abbrev Rows := AList Row

abbrev Db := RowStore Key String Row

/-- The rows of `order_items` of an order. -/
def itemsOf (rows : Rows) (orderID : Uuid) : List OrderItem :=
  (rows.lookup (.items orderID)).getD []

/-! ## Column types -/

/-- A value stored in a `Numeric(12, 2)` column: two decimals, half away from
    zero. -/
def round2 (x : ℚ) : ℚ :=
  if 0 ≤ x then (⌊x * 100 + 1 / 2⌋ : ℚ) / 100 else -((⌊-x * 100 + 1 / 2⌋ : ℚ) / 100)

/-- `Numeric(12, 2)` has ten digits before the point. -/
def fitsNumeric (x : ℚ) : Bool := decide (|round2 x| < 10 ^ 10)

/-- `INTEGER` has 32 bits. -/
def fitsInteger (n : Int) : Bool := decide (-2 ^ 31 ≤ n) && decide (n < 2 ^ 31)

def Product.fits (p : Product) : Bool := fitsInteger p.stock && fitsNumeric p.price

def PromoCode.fits (p : PromoCode) : Bool :=
  fitsInteger p.maxUses && fitsInteger p.currentUses && fitsNumeric p.discountValue &&
    fitsNumeric p.minOrderAmount

def Order.fits (o : Order) : Bool := fitsNumeric o.totalAmount && fitsNumeric o.discountAmount

/-- The amounts as the columns hold them. -/
def Order.stored (o : Order) : Order :=
  { o with totalAmount := round2 o.totalAmount, discountAmount := round2 o.discountAmount }

def Product.stored (p : Product) : Product := { p with price := round2 p.price }

def PromoCode.stored (p : PromoCode) : PromoCode :=
  { p with
    discountValue := round2 p.discountValue
    minOrderAmount := round2 p.minOrderAmount }

/-! ## Statements -/

/-- The changed columns of an `UPDATE orders`. -/
structure OrderChange where
  status : Option OrderStatus
  promoCodeID : Option (Option Uuid)
  totalAmount : Option ℚ
  discountAmount : Option ℚ
deriving DecidableEq, Repr

def OrderChange.apply (change : OrderChange) (o : Order) : Order where
  userID := o.userID
  status := change.status.getD o.status
  promoCodeID := change.promoCodeID.getD o.promoCodeID
  totalAmount := change.totalAmount.getD o.totalAmount
  discountAmount := change.discountAmount.getD o.discountAmount

/-- The changed columns of an `UPDATE products`, where the inner `none` is a
    `NULL`. -/
structure ProductChange where
  name : Option (Option String)
  description : Option (Option String)
  price : Option (Option ℚ)
  stock : Option (Option Int)
  category : Option (Option String)
  status : Option (Option ProductStatus)
deriving DecidableEq, Repr

/-- Every column of `products` but `description` is `NOT NULL`. -/
def ProductChange.violatesNotNull (change : ProductChange) : Bool :=
  change.name == some none || change.price == some none || change.stock == some none ||
    change.category == some none || change.status == some none

/-- The column after an `UPDATE` that sets no `NULL`. -/
def column {α : Type} (change : Option (Option α)) (old : α) : α :=
  match change with
  | some (some value) => value
  | _ => old

def ProductChange.apply (change : ProductChange) (p : Product) : Product where
  name := column change.name p.name
  description := change.description.getD p.description
  price := column change.price p.price
  stock := column change.stock p.stock
  category := column change.category p.category
  status := column change.status p.status
  sellerID := p.sellerID

/-- An order item before its `INSERT`. -/
structure ItemLine where
  productID : Uuid
  quantity : Int
  priceAtOrder : ℚ
deriving DecidableEq, Repr

/-- `product_map`: the products a session has loaded, by id. -/
abbrev ProductMap := AList fun _ : Uuid => Product

inductive DbError where
  | notNullViolation
  | uniqueViolation
  | outOfRange
  | noRows
  | failure
deriving DecidableEq, Repr

inductive Statement where
  /-- `SELECT ... FROM users WHERE id = ...` -/
  | selectUser (id : Uuid)
  /-- `datetime.now(timezone.utc)` -/
  | now
  /-- `SELECT ... FROM user_operations WHERE user_id = ... AND operation_type = ...
      ORDER BY created_at DESC LIMIT 1` -/
  | selectLastOperation (userID : Uuid) (operationType : OperationType)
  /-- `SELECT ... FROM orders WHERE user_id = ... AND status IN (...) LIMIT 1` -/
  | selectActiveOrder (userID : Uuid)
  /-- `SELECT ... FROM products WHERE id IN (...) FOR UPDATE` -/
  | selectProductsForUpdate (ids : List Uuid)
  | selectProduct (id : Uuid)
  | selectPromoByCode (code : String)
  | selectPromo (id : Uuid)
  | selectOrder (id : Uuid)
  /-- The lazy load of `order.items`. -/
  | selectItems (orderID : Uuid)
  /-- `UPDATE products SET stock = ... WHERE id = ...` -/
  | updateStock (id : Uuid) (stock : Int)
  /-- `UPDATE promo_codes SET current_uses = ... WHERE id = ...` -/
  | updateUses (id : Uuid) (uses : Int)
  | insertOrder (order : Order)
  | updateOrder (id : Uuid) (change : OrderChange)
  | insertItems (orderID : Uuid) (lines : List ItemLine)
  /-- `DELETE FROM order_items WHERE id = ...` for each id -/
  | deleteItems (orderID : Uuid) (ids : List Uuid)
  | insertOperation (userID : Uuid) (operationType : OperationType)
  | insertProduct (product : Product)
  | updateProduct (id : Uuid) (change : ProductChange)
  | insertPromo (promo : PromoCode)
  | commit
  /-- `db.refresh(...)` after the commit -/
  | refreshOrder (id : Uuid)
  | refreshProduct (id : Uuid)
  | refreshPromo (id : Uuid)

@[reducible] def Result : Statement → Type
  | .selectUser _ => Option User
  | .now => Int
  | .selectLastOperation _ _ => Option Int
  | .selectActiveOrder _ => Option Uuid
  | .selectProductsForUpdate _ => ProductMap
  | .selectProduct _ => Option Product
  | .selectPromoByCode _ => Option (Uuid × PromoCode)
  | .selectPromo _ => Option PromoCode
  | .selectOrder _ => Option Order
  | .selectItems _ => List OrderItem
  | .insertOrder _ => Uuid
  | .insertProduct _ => Uuid
  | .insertPromo _ => Uuid
  | .refreshOrder _ => Option Order
  | .refreshProduct _ => Option Product
  | .refreshPromo _ => Option PromoCode
  | _ => Unit

@[reducible] def Answer (statement : Statement) : Type := Except DbError (Result statement)

/-- What a session has loaded without a lock in its transaction, and when the
    transaction began. -/
structure Session where
  began : Option Int
  order : Option (Uuid × Order)
  items : Option (Uuid × List OrderItem)
  promo : Option (Uuid × PromoCode)

def Session.empty : Session := ⟨none, none, none, none⟩

structure State where
  db : Db
  sessions : Nat → Session
  clock : Int

/-- A statement fails, or it proceeds and `uuid4()` gives the stated values. -/
inductive Choice where
  | proceed (generated : List Uuid)
  | failure

def State.withDb (s : State) (db : Db) : State := { s with db := db }

def State.withSession (s : State) (i : Nat) (session : Session) : State :=
  { s with sessions := Function.update s.sessions i session }

/-! ## Queries -/

/-- The time of the last operation of that type. -/
def lastOperation (rows : Rows) (userID : Uuid) (operationType : OperationType) : Option Int :=
  (rows.entries.filterMap fun
    | ⟨.operation _, op⟩ =>
        if op.userID = userID ∧ op.operationType = operationType then some op.createdAt else none
    | _ => none).max?

def activeOrder (rows : Rows) (userID : Uuid) : Option Uuid :=
  rows.entries.findSome? fun
    | ⟨.order id, o⟩ => if o.userID = userID ∧ o.status.isActive = true then some id else none
    | _ => none

def promoByCode (rows : Rows) (code : String) : Option (Uuid × PromoCode) :=
  rows.entries.findSome? fun
    | ⟨.promo id, p⟩ => if p.code = code then some (id, p) else none
    | _ => none

/-- The rows of `products` under `ids`. -/
def productMap (rows : Rows) : List Uuid → ProductMap
  | [] => ∅
  | id :: ids =>
      match rows.lookup (.product id) with
      | some p => (productMap rows ids).insert id p
      | none => productMap rows ids

/-- The primary keys of `order_items`. -/
def itemIDs (rows : Rows) : List Uuid :=
  rows.entries.flatMap fun
    | ⟨.items _, items⟩ => items.map OrderItem.id
    | _ => []

def answerWritten {row : Type} : RowStore.Written row → Except DbError Unit
  | .missing => .error .noRows
  | .rejected => .error .outOfRange
  | .written _ => .ok ()

/-- The rows that an `INSERT` of `lines` with the keys `ids` adds. -/
def newItems (ids : List Uuid) (lines : List ItemLine) : List OrderItem :=
  (ids.zip lines).map fun (id, line) => ⟨id, line.productID, line.quantity, line.priceAtOrder⟩

/-- The keys that `uuid4()` gives are new. -/
def freshIDs (rows : Rows) (ids : List Uuid) (lines : List ItemLine) : Bool :=
  decide (ids.length = lines.length) && decide ids.Nodup &&
    ids.all fun id => decide (id ∉ itemIDs rows)

/-- `INSERT INTO order_items`, the first rows of an order or further ones. -/
def insertItems (db : Db) (i : Nat) (orderID : Uuid) (items : List OrderItem) : Option Db :=
  match db.read i (.items orderID) with
  | none => db.insertRow i (.items orderID) items
  | some _ =>
      (db.update i (.items orderID) (fun old : List OrderItem => old ++ items)
        fun _ => true).map Prod.snd

/-! ## Execution -/

/-- The one key that an `INSERT` of one row takes from `uuid4()`. -/
def oneID : List Uuid → Option Uuid
  | [id] => some id
  | _ => none

/-- A `SELECT` without a lock, or the clock. -/
def answerRead {α : Type} (s : State) (value : α) : Option (Except DbError α × State) :=
  some (.ok value, s)

/-- A `SELECT` whose row the session keeps. -/
def answerLoaded {α : Type} (s : State) (i : Nat) (value : α) (session : Session) :
    Option (Except DbError α × State) :=
  some (.ok value, s.withSession i session)

/-- An `UPDATE` that must find its row. -/
def answerUpdate {row : Type} (s : State) (result : Option (RowStore.Written row × Db)) :
    Option (Except DbError Unit × State) :=
  result.map fun written => (answerWritten written.1, s.withDb written.2)

/-- A statement that answers `value` and has taken the tables to `db`. -/
def answerDb {α : Type} (s : State) (value : α) (db : Option Db) :
    Option (Except DbError α × State) :=
  db.map fun db => (.ok value, s.withDb db)

def answerInserted {row : Type} (id : Uuid) : RowStore.Written row → Except DbError Uuid
  | .written _ => .ok id
  | _ => .error .uniqueViolation

/-- Execute a statement of session `i` that does not fail. -/
def proceed (i : Nat) (generated : List Uuid) (s : State) :
    (statement : Statement) → Option (Answer statement × State)
  | .selectUser id =>
      -- the first statement of the request opens its transaction
      answerLoaded s i (s.db.read i (.user id))
        { s.sessions i with began := (s.sessions i).began.or (some s.clock) }
  | .now => answerRead s s.clock
  | .selectLastOperation userID operationType =>
      answerRead s (lastOperation (s.db.view i) userID operationType)
  | .selectActiveOrder userID => answerRead s (activeOrder (s.db.view i) userID)
  | .selectProductsForUpdate ids =>
      answerDb s (productMap (s.db.view i) ids) (s.db.lockAll i (ids.map .product))
  | .selectProduct id => answerRead s (s.db.read i (.product id))
  | .selectPromoByCode code =>
      answerLoaded s i (promoByCode (s.db.view i) code)
        { s.sessions i with promo := promoByCode (s.db.view i) code }
  | .selectPromo id =>
      answerLoaded s i (s.db.read i (.promo id))
        { s.sessions i with promo := (s.db.read i (.promo id)).map fun p => (id, p) }
  | .selectOrder id =>
      answerLoaded s i (s.db.read i (.order id))
        { s.sessions i with order := (s.db.read i (.order id)).map fun o => (id, o) }
  | .selectItems orderID =>
      answerLoaded s i (itemsOf (s.db.view i) orderID)
        { s.sessions i with items := some (orderID, itemsOf (s.db.view i) orderID) }
  | .updateStock id stock =>
      answerUpdate s (s.db.update i (.product id)
        (fun p : Product => { p with stock := stock }) Product.fits)
  | .updateUses id uses =>
      answerUpdate s (s.db.update i (.promo id)
        (fun p : PromoCode => { p with currentUses := uses }) PromoCode.fits)
  | .insertOrder order =>
      if order.fits then
        (oneID generated).bind fun id =>
          answerDb s id (s.db.insertRow i (.order id) order.stored)
      else some (.error .outOfRange, s)
  | .updateOrder id change =>
      answerUpdate s (s.db.update i (.order id)
        (fun o : Order => (change.apply o).stored) Order.fits)
  | .insertItems orderID lines =>
      if freshIDs (s.db.view i) generated lines then
        answerDb s () (insertItems s.db i orderID (newItems generated lines))
      else none
  | .deleteItems orderID ids =>
      -- a row that is already gone is not missed (SQLAlchemy only warns)
      answerDb s () ((s.db.update i (.items orderID)
        (fun items : List OrderItem => items.filter fun item => decide (item.id ∉ ids))
        fun _ => true).map Prod.snd)
  | .insertOperation userID operationType =>
      -- `created_at` defaults to the start of the transaction
      (oneID generated).bind fun id =>
        answerDb s () (s.db.insertRow i (.operation id)
          ⟨userID, operationType, (s.sessions i).began.getD s.clock⟩)
  | .insertProduct product =>
      if product.fits then
        (oneID generated).bind fun id =>
          answerDb s id (s.db.insertRow i (.product id) product.stored)
      else some (.error .outOfRange, s)
  | .updateProduct id change =>
      if change.violatesNotNull then some (.error .notNullViolation, s)
      else
        answerUpdate s (s.db.update i (.product id)
          (fun p : Product => (change.apply p).stored) Product.fits)
  | .insertPromo promo =>
      if promo.fits then
        (oneID generated).bind fun id =>
          (s.db.insert codeIndex i (.promo id) promo.code promo.stored).map fun written =>
            (answerInserted id written.1, s.withDb written.2)
      else some (.error .outOfRange, s)
  | .commit => answerLoaded (s.withDb (s.db.commit i)) i () .empty
  | .refreshOrder id => answerRead s (s.db.read i (.order id))
  | .refreshProduct id => answerRead s (s.db.read i (.product id))
  | .refreshPromo id => answerRead s (s.db.read i (.promo id))

def execute (i : Nat) (statement : Statement) (choice : Choice) (s : State) :
    Option (Answer statement × State) :=
  match choice with
  | .proceed generated => proceed i generated s statement
  | .failure => some (.error .failure, s)

/-- The database with the committed rows `rows` and no session. -/
def State.ofRows (rows : Rows) : State := ⟨RowStore.ofRows rows, fun _ => .empty, 0⟩

end SoaHomework.Marketplace
