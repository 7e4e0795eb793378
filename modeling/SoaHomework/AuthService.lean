import SoaHomework.Binary64
import SoaHomework.MarketApi

/-!
# Registration, login and tokens

The endpoints under `/auth` and `get_current_user`, which every other endpoint
depends on, as programs over the table of users, the clock and the signing of
tokens. Their requests are interleaved at statement granularity; `users` has a unique
index on `email`. The libraries behind tokens and passwords are parameters.
-/

namespace SoaHomework.Marketplace.Auth

open StatementProgram

/-! ## Tokens and passwords -/

/-- A value in the JSON object of a token. A text that spells a UUID is that UUID. -/
inductive Claim where
  | uuid (id : Uuid)
  | text (value : String)
  | number (value : Int)
  | other
deriving DecidableEq, Repr

abbrev Payload := List (String × Claim)

def Payload.get? (payload : Payload) (name : String) : Option Claim := payload.lookup name

inductive TokenType where
  | access
  | refresh
deriving DecidableEq, Repr

def TokenType.value : TokenType → String
  | .access => "access"
  | .refresh => "refresh"

def roleValue : UserRole → String
  | .user => "USER"
  | .seller => "SELLER"
  | .admin => "ADMIN"

/-- What `jwt.decode` raises: `ExpiredSignatureError`, or another `JWTError`. -/
inductive JwtError where
  | expired
  | invalid
deriving DecidableEq, Repr

/-- `int(t.timestamp())` of a time in microseconds, which the float may round up. -/
def timestamp (t : Int) : Int := Binary64.truncate (Binary64.double ((t : ℚ) / 1000000))

/-- The seconds of the clock that `jose` compares `exp` with. -/
def seconds (t : Int) : Int := t / 1000000

/-- The times of a `datetime`, from the year 1 to the year 9999. -/
def representable (t : Int) : Bool :=
  decide (-62135596800000000 ≤ t) && decide (t < 253402300800000000)

/-- The payload that `_create_token` signs. -/
def claims (subject : Uuid) (role : UserRole) (tokenType : TokenType) (issued expires : Int) :
    Payload :=
  [("sub", .uuid subject), ("role", .text (roleValue role)), ("type", .text tokenType.value),
    ("iat", .number issued), ("exp", .number expires)]

/-- `jose.jwt` with HS256. Decoding compares `exp` with the seconds of the clock. -/
structure Jwt where
  encode : Payload → String → String
  decode : String → String → Int → Except JwtError Payload

/-- `passlib`. A hash depends on a salt, and some passwords raise a `ValueError`. -/
structure PwdContext where
  hash : String → String → Option String
  verify : String → String → Bool

/-- Python's whitespace. -/
def isSpace (c : Char) : Bool :=
  [0x20, 0x85, 0xA0, 0x1680, 0x2028, 0x2029, 0x202F, 0x205F, 0x3000].contains c.toNat ||
    decide (0x9 ≤ c.toNat ∧ c.toNat ≤ 0xD) || decide (0x1C ≤ c.toNat ∧ c.toNat ≤ 0x1F) ||
    decide (0x2000 ≤ c.toNat ∧ c.toNat ≤ 0x200A)

/-- `str.strip()` -/
def strip (s : String) : String :=
  String.ofList (((s.toList.dropWhile isSpace).reverse.dropWhile isSpace).reverse)

/-- The settings of the tokens, and the libraries. -/
structure Config where
  jwtSecretKey : String
  jwtRefreshSecretKey : String
  accessTokenExpiresMinutes : Int
  refreshTokenExpiresDays : Int
  jwt : Jwt
  pwdContext : PwdContext

def Config.secret (config : Config) : TokenType → String
  | .access => config.jwtSecretKey
  | .refresh => config.jwtRefreshSecretKey

/-- `expires_delta` in microseconds. -/
def Config.lifetime (config : Config) : TokenType → Int
  | .access => config.accessTokenExpiresMinutes * 60 * 1000000
  | .refresh => config.refreshTokenExpiresDays * 86400 * 1000000

/-! ## State and statements -/

structure UserRow where
  email : String
  hashedPassword : String
  role : UserRole
deriving DecidableEq, Repr

abbrev Users := AList fun _ : Uuid => UserRow

abbrev Db := RowStore Uuid String fun _ => UserRow

/-- The unique index on `email`. -/
def emailIndex (_ : Uuid) (row : UserRow) : Option String := some row.email

/-- A token, by the request that has signed it, and when. -/
structure Signed where
  request : Nat
  key : String
  payload : Payload
  time : Int
deriving DecidableEq, Repr

structure State where
  db : Db
  /-- microseconds -/
  clock : Int
  /-- All that has been signed, what the clock has shown to which request, and the requests
      of which a statement has failed. No program reads these; they are for the statements
      about runs. -/
  signed : List Signed
  readings : List (Nat × Int)
  failures : List Nat

inductive Statement where
  /-- `SELECT ... FROM users WHERE email = ...` -/
  | selectUserByEmail (email : String)
  /-- `SELECT ... FROM users WHERE id = ...` of a claim -/
  | selectUser (subject : Option Claim)
  | insertUser (row : UserRow)
  | commit
  | refreshUser (id : Uuid)
  /-- `pwd_context.hash` -/
  | hash (password : String)
  | now
  /-- `jwt.encode` -/
  | sign (payload : Payload) (key : String)
deriving DecidableEq

@[reducible] def Result : Statement → Type
  | .selectUserByEmail _ => Option (Uuid × UserRow)
  | .selectUser _ => Option (Uuid × UserRow)
  | .insertUser _ => Uuid
  | .commit => Unit
  | .refreshUser _ => Option UserRow
  | .hash _ => Option String
  | .now => Int
  | .sign _ _ => String

@[reducible] def Answer (statement : Statement) : Type := Except DbError (Result statement)

abbrev Handler := Program Statement Answer HandlerError

/-- A statement fails in the database, or it proceeds, with the UUID and the salt that
    are generated in it. -/
inductive Choice where
  | proceed (generated : Uuid) (salt : String)
  | failure

def userByEmail (users : Users) (email : String) : Option (Uuid × UserRow) :=
  users.entries.findSome? fun entry =>
    if entry.2.email = email then some (entry.1, entry.2) else none

/-- The statements that PostgreSQL executes. -/
def Statement.isSql : Statement → Bool
  | .hash _ => false
  | .now => false
  | .sign _ _ => false
  | _ => true

variable (config : Config)

/-- Execute a statement that does not fail. -/
def proceed (i : Nat) (generated : Uuid) (salt : String) (s : State) :
    (statement : Statement) → Option (Answer statement × State)
  | .selectUserByEmail email => some (.ok (userByEmail (s.db.view i) email), s)
  | .selectUser none => some (.ok none, s)
  | .selectUser (some (.uuid id)) =>
      some (.ok ((s.db.read i id).map fun row => (id, row)), s)
  -- PostgreSQL cannot compare a UUID with anything else
  | .selectUser (some _) => some (.error .failure, s)
  | .insertUser row =>
      (s.db.insert emailIndex i generated row.email row).map fun (written, db) =>
        match written with
        | .written _ => (.ok generated, { s with db := db })
        | _ => (.error .uniqueViolation, { s with db := db })
  | .commit => some (.ok (), { s with db := s.db.commit i })
  | .refreshUser id => some (.ok (s.db.read i id), s)
  | .hash password => some (.ok (config.pwdContext.hash salt password), s)
  | .now => some (.ok s.clock, { s with readings := s.readings ++ [(i, s.clock)] })
  | .sign payload key =>
      some (.ok (config.jwt.encode payload key),
        { s with signed := s.signed ++ [⟨i, key, payload, s.clock⟩] })

def execute (i : Nat) (statement : Statement) (choice : Choice) (s : State) :
    Option (Answer statement × State) :=
  match choice with
  | .proceed generated salt => proceed config i generated salt s statement
  | .failure =>
      if statement.isSql then some (.error .failure, { s with failures := s.failures ++ [i] })
      else none

/-! ## Requests -/

structure AuthLoginRequest where
  email : String
  password : String
  minLength : 6 ≤ password.length
  maxLength : password.length ≤ 255
deriving DecidableEq

deriving instance DecidableEq for AuthRegisterRequest

inductive Request where
  | register (payload : AuthRegisterRequest)
  | login (payload : AuthLoginRequest)
  | refresh (refreshToken : String)
  /-- A request to an endpoint that depends on `get_current_user`, with the credentials
      of its `Authorization: Bearer` header. -/
  | bearer (credentials : Option String)
deriving DecidableEq

inductive Response where
  | registered (id : Uuid) (email : String) (role : UserRole)
  | tokens (accessToken refreshToken : String)
  /-- The user whom the endpoint goes on to serve. -/
  | current (id : Uuid) (role : UserRole)
deriving DecidableEq, Repr

/-! ## The handlers -/

variable {α : Type}

def query (statement : Statement) : Handler (Result statement) := do
  match ← Program.perform statement with
  | .ok result => .ret result
  | .error error => .fail (.db error)

def unauthorized (code message : String) : Handler α := .fail (.api ⟨code, 401, message, .none⟩)

def invalidPassword : ApiError :=
  ⟨"VALIDATION_ERROR", 400, "Validation error", .fields [("password", "Invalid password value")]⟩

def hashPassword (password : String) : Handler String := do
  match ← query (.hash password) with
  | none => .fail (.api invalidPassword)
  | some hashedPassword => return hashedPassword

def createToken (subject : Uuid) (role : UserRole) (tokenType : TokenType) : Handler String := do
  let now ← query .now
  -- `now + expires_delta` raises an `OverflowError`
  Program.raiseIf (!representable (now + config.lifetime tokenType)) (.db .outOfRange)
  query (.sign (claims subject role tokenType (timestamp now)
    (timestamp (now + config.lifetime tokenType))) (config.secret tokenType))

def TokenType.expiredCode : TokenType → String
  | .access => "TOKEN_EXPIRED"
  | .refresh => "REFRESH_TOKEN_INVALID"

def TokenType.invalidCode : TokenType → String
  | .access => "TOKEN_INVALID"
  | .refresh => "REFRESH_TOKEN_INVALID"

def verifyToken (token : String) (tokenType : TokenType) : Handler Payload := do
  let now ← query .now
  match config.jwt.decode token (config.secret tokenType) (seconds now) with
  | .error .expired => unauthorized tokenType.expiredCode "Token expired"
  | .error .invalid => unauthorized tokenType.invalidCode "Token invalid"
  | .ok payload =>
      if payload.get? "type" = some (.text tokenType.value) then return payload
      else unauthorized tokenType.invalidCode "Token type mismatch"

/-- The user that a query for the subject of a token has found. -/
def requireUser (tokenType : TokenType) :
    Option (Uuid × UserRow) → Handler (Uuid × UserRow)
  | none => unauthorized tokenType.invalidCode "User not found"
  | some user => return user

def getCurrentUser (credentials : Option String) : Handler (Uuid × UserRow) := do
  match credentials.filter fun value => value ≠ "" with
  | none => unauthorized "TOKEN_INVALID" "Missing access token"
  | some value =>
      let payload ← verifyToken config (strip value) .access
      let found ← query (.selectUser (payload.get? "sub"))
      requireUser .access found

def registerUser (payload : AuthRegisterRequest) : Handler Response := do
  let existing ← query (.selectUserByEmail payload.email)
  Program.raiseIf existing.isSome (.api .emailRegistered)
  let hashedPassword ← hashPassword payload.password
  let id ← query (.insertUser ⟨payload.email, hashedPassword, payload.role.getD .user⟩)
  query .commit
  match ← query (.refreshUser id) with
  | none => .fail (.db .noRows)
  | some user => return .registered id user.email user.role

def loginUser (payload : AuthLoginRequest) : Handler Response := do
  match ← query (.selectUserByEmail payload.email) with
  | none => unauthorized "TOKEN_INVALID" "Invalid credentials"
  | some (id, user) =>
      if config.pwdContext.verify payload.password user.hashedPassword then
        let accessToken ← createToken config id user.role .access
        let refreshToken ← createToken config id user.role .refresh
        return .tokens accessToken refreshToken
      else unauthorized "TOKEN_INVALID" "Invalid credentials"

def refreshToken (token : String) : Handler Response := do
  let payload ← verifyToken config token .refresh
  let found ← query (.selectUser (payload.get? "sub"))
  let (id, user) ← requireUser .refresh found
  let accessToken ← createToken config id user.role .access
  return .tokens accessToken token

def handle : Request → Handler Response
  | .register payload => registerUser payload
  | .login payload => loginUser config payload
  | .refresh token => refreshToken config token
  | .bearer credentials => do
      let (id, user) ← getCurrentUser config credentials
      return .current id user.role

/-- The `/auth` endpoints and the authentication of all others. From outside comes the
    time that passes. -/
def service : Service Statement Answer HandlerError Response Request Choice Nat State where
  handler := handle config
  exec := execute config
  close i s := { s with db := s.db.rollback i }
  outside elapsed s := some { s with clock := s.clock + elapsed }

abbrev AuthPool := Pool Statement Answer HandlerError Response Request State

abbrev AuthEvent := Event Request Choice Nat

/-- The service with the stored users, when nothing has been signed. -/
def start (users : Users) (clock : Int) : AuthPool :=
  Pool.initial ⟨.ofRows users, clock, [], [], []⟩

end SoaHomework.Marketplace.Auth
