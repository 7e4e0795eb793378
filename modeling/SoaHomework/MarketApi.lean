import SoaHomework.MarketSequences
import SoaHomework.ProgramRuns

/-!
# The whole API of the marketplace

The endpoints of `main.py` beside those that write products, orders and promo
codes: the registration of users, and the endpoints that only read. A complete
request of either kind, with no other running, takes the stored tables to the
stored tables (`ApiStep`).
-/

namespace SoaHomework.Marketplace

open StatementProgram

/-! ## Tables and statements -/

/-- The columns of `users` that the other handlers do not read. -/
structure Credentials where
  email : String
  hashedPassword : String
deriving DecidableEq, Repr

structure Tables where
  rows : Rows
  credentials : AList fun _ : Uuid => Credentials

/-- The filters of `list_products`. -/
structure ProductFilter where
  status : Option ProductStatus
  category : Option String
deriving DecidableEq, Repr

inductive ApiStatement where
  /-- `SELECT ... FROM users WHERE email = ...` -/
  | selectUserByEmail (email : String)
  | insertUser (credentials : Credentials) (role : UserRole)
  | commit
  /-- `db.refresh(user)` after the commit -/
  | refreshUser (id : Uuid)
  | selectUser (id : Uuid)
  | selectProduct (id : Uuid)
  | selectOrder (id : Uuid)
  | selectItems (orderID : Uuid)
  | countProducts (filter : ProductFilter)
  /-- `SELECT ... FROM products WHERE ... OFFSET ... LIMIT ...` -/
  | selectProducts (filter : ProductFilter) (offset limit : Nat)

@[reducible] def ApiResult : ApiStatement → Type
  | .selectUserByEmail _ => Option Uuid
  | .insertUser _ _ => Uuid
  | .commit => Unit
  | .refreshUser _ => Option (Credentials × User)
  | .selectUser _ => Option User
  | .selectProduct _ => Option Product
  | .selectOrder _ => Option Order
  | .selectItems _ => List OrderItem
  | .countProducts _ => Nat
  | .selectProducts _ _ _ => List (Uuid × Product)

@[reducible] def ApiAnswer (statement : ApiStatement) : Type :=
  Except DbError (ApiResult statement)

abbrev ApiHandler := Program ApiStatement ApiAnswer HandlerError

/-- The tables that are committed, and as a session sees them. -/
structure ApiSession where
  committed : Tables
  current : Tables

def userByEmail (tables : Tables) (email : String) : Option Uuid :=
  tables.credentials.entries.findSome? fun entry =>
    if entry.2.email = email then some entry.1 else none

def ProductFilter.matches (filter : ProductFilter) (product : Product) : Bool :=
  filter.status.all (fun status => decide (product.status = status)) &&
    filter.category.all fun category => decide (product.category = category)

def filteredProducts (rows : Rows) (filter : ProductFilter) : List (Uuid × Product) :=
  rows.entries.filterMap fun
    | ⟨.product id, product⟩ => if filter.matches product then some (id, product) else none
    | _ => none

def Tables.insertUser (tables : Tables) (id : Uuid) (credentials : Credentials)
    (role : UserRole) : Tables where
  rows := tables.rows.insert (.user id) ⟨role⟩
  credentials := tables.credentials.insert id credentials

/-- Execute a statement that does not fail. -/
def proceedApi (generated : List Uuid) (s : ApiSession) :
    (statement : ApiStatement) → Option (ApiAnswer statement × ApiSession)
  | .selectUserByEmail email => some (.ok (userByEmail s.current email), s)
  | .insertUser credentials role =>
      (oneID generated).bind fun id =>
        if .user id ∈ s.current.rows then none
        else if (userByEmail s.current credentials.email).isSome then
          some (.error .uniqueViolation, s)
        else some (.ok id, { s with current := s.current.insertUser id credentials role })
  | .commit => some (.ok (), ⟨s.current, s.current⟩)
  | .refreshUser id =>
      some (.ok ((s.current.credentials.lookup id).bind fun credentials =>
        (s.current.rows.lookup (.user id)).map fun user => (credentials, user)), s)
  | .selectUser id => some (.ok (s.current.rows.lookup (.user id)), s)
  | .selectProduct id => some (.ok (s.current.rows.lookup (.product id)), s)
  | .selectOrder id => some (.ok (s.current.rows.lookup (.order id)), s)
  | .selectItems orderID => some (.ok (itemsOf s.current.rows orderID), s)
  | .countProducts filter => some (.ok (filteredProducts s.current.rows filter).length, s)
  | .selectProducts filter offset limit =>
      some (.ok (((filteredProducts s.current.rows filter).drop offset).take limit), s)

def executeApi (statement : ApiStatement) (choice : Choice) (s : ApiSession) :
    Option (ApiAnswer statement × ApiSession) :=
  match choice with
  | .proceed generated => proceedApi generated s statement
  | .failure => some (.error .failure, s)

/-! ## The handlers -/

structure AuthRegisterRequest where
  email : String
  password : String
  role : Option UserRole
  minLength : 6 ≤ password.length
  maxLength : password.length ≤ 255

def ApiError.emailRegistered : ApiError :=
  ⟨"VALIDATION_ERROR", 400, "Email already registered", .fields [("email", "Already exists")]⟩

inductive ApiResponse where
  | registered (id : Uuid) (email : String) (role : UserRole)
  | products (items : List (Uuid × Product)) (totalElements page size : Nat)
  | product (id : Uuid) (product : Product)
  | order (response : OrderResponse)

/-- Send a statement. -/
def ask (statement : ApiStatement) : ApiHandler (ApiResult statement) := do
  match ← Program.perform statement with
  | .ok result => .ret result
  | .error error => .fail (.db error)

def raiseApi {α : Type} (error : ApiError) : ApiHandler α := .fail (.api error)

/-- `hash_password` turns a value that cannot be hashed into an error. -/
def registerUser (hashPassword : String → Except ApiError String)
    (payload : AuthRegisterRequest) : ApiHandler ApiResponse := do
  let existing ← ask (.selectUserByEmail payload.email)
  Program.raiseIf existing.isSome (.api .emailRegistered)
  match hashPassword payload.password with
  | .error error => raiseApi error
  | .ok hashedPassword =>
      let id ← ask (.insertUser ⟨payload.email, hashedPassword⟩ (payload.role.getD .user))
      ask .commit
      match ← ask (.refreshUser id) with
      | none => .fail (.db .noRows)
      | some (credentials, user) => return .registered id credentials.email user.role

/-- `get_current_user` for a verified token. -/
def getCurrentUser (subject : Uuid) : ApiHandler User := do
  match ← ask (.selectUser subject) with
  | none => raiseApi .tokenInvalid
  | some user => return user

def listProducts (subject : Uuid) (filter : ProductFilter) (page size : Nat) :
    ApiHandler ApiResponse := do
  let _ ← getCurrentUser subject
  let total ← ask (.countProducts filter)
  let items ← ask (.selectProducts filter (page * size) size)
  return .products items total page size

def getProduct (subject id : Uuid) : ApiHandler ApiResponse := do
  let _ ← getCurrentUser subject
  match ← ask (.selectProduct id) with
  | none => raiseApi .productNotFound
  | some product => return .product id product

def getOrder (subject id : Uuid) : ApiHandler ApiResponse := do
  let user ← getCurrentUser subject
  if user.role = .user ∨ user.role = .admin then
    match ← ask (.selectOrder id) with
    | none => raiseApi .orderNotFound
    | some order =>
        if user.role ≠ .admin ∧ order.userID ≠ subject then raiseApi .orderOwnershipViolation
        else
          let items ← ask (.selectItems id)
          return .order ⟨id, order, items⟩
  else raiseApi .accessDenied

/-! ## Complete requests -/

inductive ApiRequest where
  | registerUser (payload : AuthRegisterRequest)
  | listProducts (subject : Uuid) (filter : ProductFilter) (page size : Nat) (min : 1 ≤ size)
  | getProduct (subject id : Uuid)
  | getOrder (subject id : Uuid)
  | market (request : Request)

/-- The user whose token the request carries. -/
def Request.subject : Request → Uuid
  | .createProduct subject _ => subject
  | .updateProduct subject _ _ => subject
  | .deleteProduct subject _ => subject
  | .createOrder subject _ => subject
  | .updateOrder subject _ _ => subject
  | .cancelOrder subject _ => subject
  | .createPromoCode subject _ => subject

def ApiRequest.subject : ApiRequest → Option Uuid
  | .registerUser _ => none
  | .listProducts subject _ _ _ _ => some subject
  | .getProduct subject _ => some subject
  | .getOrder subject _ => some subject
  | .market request => some request.subject

/-- The handlers of this module. -/
def handleApi (hashPassword : String → Except ApiError String) :
    ApiRequest → Option (ApiHandler ApiResponse)
  | .registerUser payload => some (registerUser hashPassword payload)
  | .listProducts subject filter page size _ => some (listProducts subject filter page size)
  | .getProduct subject id => some (getProduct subject id)
  | .getOrder subject id => some (getOrder subject id)
  | .market _ => none

/-- A request that is served with no other running, from its start to its end,
    takes the committed rows from `rows` to `rows'`. -/
def Serves (settings : Settings) (request : Request) (rows rows' : Rows) : Prop :=
  ∃ (events : List MarketEvent) (pool : MarketPool),
    (service settings).run (start rows) (.start request :: events) = some pool ∧
      events.all Event.continues = true ∧ pool.idle = true ∧
      rowsOf pool = rows'

/-- A complete request takes the stored tables from one state to the next. -/
inductive ApiStep (settings : Settings) (hashPassword : String → Except ApiError String) :
    ApiRequest → Tables → Tables → Prop where
  | market {request : Request} {tables : Tables} {rows' : Rows}
      (hserves : Serves settings request tables.rows rows') :
      ApiStep settings hashPassword (.market request) tables { tables with rows := rows' }
  | handled {request : ApiRequest} {tables : Tables} {program : ApiHandler ApiResponse}
      {result : Except HandlerError ApiResponse} {session : ApiSession}
      (hprogram : handleApi hashPassword request = some program)
      (hruns : program.Runs executeApi ⟨tables, tables⟩ result session) :
      ApiStep settings hashPassword request tables session.committed

/-- A finite sequence of requests. -/
inductive ApiRun (settings : Settings) (hashPassword : String → Except ApiError String) :
    Tables → Tables → Prop where
  | refl (tables : Tables) : ApiRun settings hashPassword tables tables
  | tail {first middle final : Tables} {request : ApiRequest} :
      ApiRun settings hashPassword first middle →
      ApiStep settings hashPassword request middle final →
      ApiRun settings hashPassword first final

end SoaHomework.Marketplace
