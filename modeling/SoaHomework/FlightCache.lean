import Mathlib.Data.List.Sort
import SoaHomework.FlightRpc
import SoaHomework.VersionedCache

/-!
# The flight service's cache

The four gRPC methods of `internal/grpcserver/server.go` with the commands that
`internal/cache/cache.go` sends to Redis, one command at a time. Redis does not
fail, and a key is there until it is deleted or replaced. A payload is the JSON
of what `toProtoFlight` makes of rows; the model keeps the rows, of which the
answers forget `version` and `flight_date`.
-/

namespace SoaHomework.FlightCache

open StatementProgram FlightService Grpc VersionedCache

/-! ## Requests and answers -/

/-- How ids are read and written: the texts that both `uuid.Parse` and the
    database accept, and the text that the database gives out. -/
structure UuidText where
  parse : String → Option Uuid
  text : Uuid → String

/-- A `store.Flight`: a row with its primary key. -/
structure FlightRow where
  id : Uuid
  row : Flight
deriving DecidableEq, Repr

structure ProtoFlight where
  id : String
  airline : String
  flightNumber : String
  origin : String
  destination : String
  departureTime : Int
  arrivalTime : Int
  totalSeats : Int
  availableSeats : Int
  priceCents : Int
  status : FlightStatus
deriving DecidableEq, Repr

def toProtoFlight (ids : UuidText) (f : FlightRow) : ProtoFlight where
  id := ids.text f.id
  airline := f.row.airline
  flightNumber := f.row.flightNumber
  origin := f.row.origin
  destination := f.row.destination
  departureTime := f.row.departureTime
  arrivalTime := f.row.arrivalTime
  totalSeats := f.row.totalSeats
  availableSeats := f.row.availableSeats
  priceCents := f.row.priceCents
  status := f.row.status

/-- `departureDate` is the `Seconds` of the timestamp, if there is one. -/
structure SearchFlightsRequest where
  origin : String
  destination : String
  departureDate : Option Int
deriving DecidableEq, Repr

inductive Request where
  | searchFlights (req : SearchFlightsRequest)
  | getFlight (flightId : String)
  | reserveSeats (flightId bookingId : String) (seatCount : Int)
  | releaseReservation (bookingId : String)
deriving DecidableEq, Repr

inductive Response where
  | flights (flights : List ProtoFlight)
  | flight (flight : ProtoFlight)
  | reservation (reservation : Reservation)
deriving DecidableEq, Repr

/-! ## Dates -/

/-- The UTC date of a time in seconds, in days since the epoch. -/
def utcDate (seconds : Int) : Int := seconds / 86400

/-- Year, month and day of a date of the Gregorian calendar, which is counted in
    eras of 400 years that begin on a first of March. -/
def civil (date : Int) : Int × Int × Int :=
  let days := date + 719468
  let dayOfEra := days % 146097
  let yearOfEra := (dayOfEra - dayOfEra / 1460 + dayOfEra / 36524 - dayOfEra / 146096) / 365
  let dayOfYear := dayOfEra - (365 * yearOfEra + yearOfEra / 4 - yearOfEra / 100)
  let month := (5 * dayOfYear + 2) / 153
  let year := yearOfEra + 400 * (days / 146097)
  (if month < 10 then year else year + 1, if month < 10 then month + 3 else month - 9,
    dayOfYear - (153 * month + 2) / 5 + 1)

def padded (width : Nat) (n : Int) : String :=
  let digits := n.natAbs.repr
  (if n < 0 then "-" else "") ++
    String.ofList (List.replicate (width - digits.length) '0') ++ digits

/-- `Format("2006-01-02")` -/
def formatDate (date : Int) : String :=
  let (year, month, day) := civil date
  padded 4 year ++ "-" ++ padded 2 month ++ "-" ++ padded 2 day

/-- The date that a search asks for. -/
def SearchFlightsRequest.date (req : SearchFlightsRequest) : Option Int :=
  match req.departureDate with
  | some seconds => if seconds ≠ 0 then some (utcDate seconds) else none
  | none => none

def dateKey (date : Option Int) : String :=
  match date with
  | some date => formatDate date
  | none => "any"

/-! ## Redis -/

/-- A key of the cache, without the prefix `flight:` or `search:` that keeps the
    two kinds apart. The key of its version has the suffix `:version`. -/
inductive CacheKey where
  | flight (id : String)
  | search (key : String)
deriving DecidableEq, Repr

def flightKey (id : String) : CacheKey := .flight id

def searchKey (origin destination dateKey : String) : CacheKey :=
  .search (origin ++ ":" ++ destination ++ ":" ++ dateKey)

def SearchFlightsRequest.key (req : SearchFlightsRequest) : CacheKey :=
  searchKey req.origin req.destination (dateKey req.date)

inductive Payload where
  | flight (f : FlightRow)
  | flights (fs : List FlightRow)
deriving DecidableEq, Repr

def Payload.rows : Payload → List FlightRow
  | .flight f => [f]
  | .flights fs => fs

abbrev Redis := Cache CacheKey Payload

/-! ## Statements and commands -/

/-- A `char(3)` value without the blanks that a comparison ignores. -/
def bpchar (s : String) : List Char := (s.toList.reverse.dropWhile (· = ' ')).reverse

/-- The condition of the search query. -/
def selects (origin destination : String) (date : Option Int) (f : Flight) : Bool :=
  decide (bpchar f.origin = bpchar origin) && decide (bpchar f.destination = bpchar destination) &&
    decide (f.status = .scheduled) && date.all fun date => decide (f.flightDate = date)

/-- `SELECT ... FROM flights WHERE ... ORDER BY departure_time` -/
def searchRows (rows : Rows) (origin destination : String) (date : Option Int) :
    List FlightRow :=
  (rows.entries.filterMap fun
    | ⟨.flight id, f⟩ => if selects origin destination date f then some ⟨id, f⟩ else none
    | ⟨.reservation _, _⟩ => none).insertionSort
      fun f g => f.row.departureTime ≤ g.row.departureTime

inductive Command where
  | db (statement : Statement)
  | searchFlights (origin destination : String) (date : Option Int)
  | get (key : CacheKey)
  | del (key : CacheKey)
  | setIfNewer (key : CacheKey) (version : Int) (payload : Payload)
  | setVersionIfNewer (key : CacheKey) (version : Int)

@[reducible] def Reply : Command → Type
  | .db statement => Answer statement
  | .searchFlights _ _ _ => Except DbError (List FlightRow)
  | .get _ => Option Payload
  | .del _ => Unit
  | .setIfNewer _ _ _ => Unit
  | .setVersionIfNewer _ _ => Unit

abbrev CacheProgram := Program Command Reply

/-! ## The methods -/

def command (c : Command) : CacheProgram RpcError (Reply c) := Program.perform c

/-- A transaction of the store as part of a method. -/
def onStore {ε α : Type} : Program Statement Answer ε α → CacheProgram ε α
  | .ret value => .ret value
  | .fail error => .fail error
  | .step statement next => .step (.db statement) fun answer => onStore (next answer)

/-- `uuid.Parse`, whose failure is answered with `error`. -/
def parseId (ids : UuidText) (text : String) (error : RpcError) : CacheProgram RpcError Uuid :=
  match ids.parse text with
  | some id => .ret id
  | none => .fail error

/-- `GetSearch`. A payload of another kind is not unmarshalled. -/
def getSearch (cached : Bool) (key : CacheKey) : CacheProgram RpcError (Option (List FlightRow)) :=
  if cached then do
    match ← command (.get key) with
    | some (.flights fs) => return some fs
    | _ => return none
  else return none

/-- `GetFlight` of the cache -/
def getCached (cached : Bool) (key : CacheKey) : CacheProgram RpcError (Option FlightRow) :=
  if cached then do
    match ← command (.get key) with
    | some (.flight f) => return some f
    | _ => return none
  else return none

/-- `SetSearchIfNewer` and `SetFlightIfNewer` -/
def setIfNewer (cached : Bool) (key : CacheKey) (version : Int) (payload : Payload) :
    CacheProgram RpcError Unit :=
  if cached then command (.setIfNewer key version payload) else return ()

def maxVersion (flights : List FlightRow) : Int :=
  flights.foldl (fun version f => if version < f.row.version then f.row.version else version) 0

def searchFlights (ids : UuidText) (cached : Bool) (req : SearchFlightsRequest) :
    CacheProgram RpcError (List ProtoFlight) := do
  Program.raiseIf (req.origin == "" || req.destination == "")
    ⟨.invalidArgument, "origin/destination обязательны"⟩
  match ← getSearch cached req.key with
  | some flights => return flights.map (toProtoFlight ids)
  | none =>
      match ← command (.searchFlights req.origin req.destination req.date) with
      | .error _ => .fail ⟨.internal, "ошибка поиска"⟩
      | .ok flights =>
          setIfNewer cached req.key (maxVersion flights) (.flights flights)
          return flights.map (toProtoFlight ids)

def getFlight (ids : UuidText) (cached : Bool) (flightId : String) :
    CacheProgram RpcError ProtoFlight := do
  Program.raiseIf (flightId == "") ⟨.invalidArgument, "flight_id обязателен"⟩
  let id ← parseId ids flightId ⟨.invalidArgument, "flight_id должен быть UUID"⟩
  match ← getCached cached (flightKey flightId) with
  | some f => return toProtoFlight ids f
  | none =>
      match ← (onStore (Store.getFlight id)).attempt with
      | .error error => .fail (Server.getError error)
      | .ok row =>
          setIfNewer cached (flightKey flightId) row.version (.flight ⟨id, row⟩)
          return toProtoFlight ids ⟨id, row⟩

/-- What a method that has changed flight `id` does to the cache. The payload of
    the flight is deleted under the text that the method has for it. -/
def invalidate (ids : UuidText) (cached : Bool) (text : String) (id : Uuid) :
    CacheProgram RpcError Unit :=
  if cached then do
    command (.del (flightKey text))
    match ← (onStore (Store.getFlight id)).attempt with
    | .error _ => return ()
    | .ok f =>
        let day := formatDate (utcDate f.departureTime)
        command (.del (searchKey f.origin f.destination day))
        command (.del (searchKey f.origin f.destination "any"))
        command (.setVersionIfNewer (flightKey (ids.text id)) f.version)
        command (.setVersionIfNewer (searchKey f.origin f.destination day) f.version)
        command (.setVersionIfNewer (searchKey f.origin f.destination "any") f.version)
  else return ()

def reserveSeats (ids : UuidText) (cached : Bool) (flightId bookingId : String)
    (seatCount : Int) : CacheProgram RpcError Reservation := do
  Program.raiseIf (flightId == "" || bookingId == "")
    ⟨.invalidArgument, "flight_id и booking_id обязательны"⟩
  let id ← parseId ids flightId ⟨.invalidArgument, "flight_id должен быть UUID"⟩
  let bookingID ← parseId ids bookingId ⟨.invalidArgument, "booking_id должен быть UUID"⟩
  Program.raiseIf (decide (seatCount ≤ 0)) ⟨.invalidArgument, "seat_count должен быть > 0"⟩
  match ← (onStore (Store.reserveSeats id bookingID seatCount)).attempt with
  | .error error => .fail (Server.reserveError error)
  | .ok r =>
      invalidate ids cached flightId id
      return r

def releaseReservation (ids : UuidText) (cached : Bool) (bookingId : String) :
    CacheProgram RpcError Reservation := do
  Program.raiseIf (bookingId == "") ⟨.invalidArgument, "booking_id обязателен"⟩
  let bookingID ← parseId ids bookingId ⟨.invalidArgument, "booking_id должен быть UUID"⟩
  match ← (onStore (Store.releaseReservation bookingID)).attempt with
  | .error error => .fail (Server.releaseError error)
  | .ok r =>
      invalidate ids cached (ids.text r.flightID) r.flightID
      return r

/-- `cached` is false when the server has no cache. -/
def handle (ids : UuidText) (cached : Bool) : Request → CacheProgram RpcError Response
  | .searchFlights req => do return .flights (← searchFlights ids cached req)
  | .getFlight flightId => do return .flight (← getFlight ids cached flightId)
  | .reserveSeats flightId bookingId seatCount => do
      return .reservation (← reserveSeats ids cached flightId bookingId seatCount)
  | .releaseReservation bookingId => do
      return .reservation (← releaseReservation ids cached bookingId)

/-! ## Execution -/

/-- The database and Redis. `changes` is what each request has committed and
    done to the cache since, and `unread` whether its reading of a flight has
    failed; no command reads them. -/
structure ServerState where
  store : State
  redis : Redis
  changes : Nat → Option (Change CacheKey Uuid)
  unread : Nat → Bool

/-- The flights that transaction `i` has written. -/
def writtenFlights (db : Db) (i : Nat) : List FlightRow :=
  (db.pending i).entries.filterMap fun
    | ⟨.flight id, f⟩ => some ⟨id, f⟩
    | ⟨.reservation _, _⟩ => none

/-- The record of a request after its commit. -/
def recorded (written : List FlightRow) (change : Option (Change CacheKey Uuid)) :
    Option (Change CacheKey Uuid) :=
  match written with
  | f :: _ => some ⟨f.id, f.row.version, [], []⟩
  | [] => change

/-- The state after a statement of request `i` that has left the store in
    `store`. -/
def ServerState.afterStatement (s : ServerState) (i : Nat) (statement : Statement)
    (store : State) : ServerState :=
  match statement with
  | .commit =>
      { s with
        store := store
        changes := Function.update s.changes i
          (recorded (writtenFlights s.store.db i) (s.changes i)) }
  | _ => { s with store := store }

/-- The state after a statement of request `i` that has failed. -/
def ServerState.failed (s : ServerState) (i : Nat) (statement : Statement) : ServerState :=
  match statement with
  | .selectFlight _ => { s with unread := Function.update s.unread i true }
  | _ => s

def ServerState.del (s : ServerState) (i : Nat) (key : CacheKey) : ServerState :=
  { s with
    redis := s.redis.delete key
    changes := Function.update s.changes i ((s.changes i).map fun change =>
      { change with deleted := key :: change.deleted }) }

def ServerState.setVersionIfNewer (s : ServerState) (i : Nat) (key : CacheKey) (version : Int) :
    ServerState :=
  { s with
    redis := s.redis.setVersionIfNewer key version
    changes := Function.update s.changes i ((s.changes i).map fun change =>
      { change with announced := key :: change.announced }) }

def exec (i : Nat) (command : Command) (choice : Choice) (s : ServerState) :
    Option (Reply command × ServerState) :=
  match command with
  | .db statement =>
      match choice with
      | .failure => some (.error .failure, s.failed i statement)
      | .proceed generated => (proceed i generated s.store statement).map fun result =>
          (result.1, s.afterStatement i statement result.2)
  | .searchFlights origin destination date =>
      match choice with
      | .failure => some (.error .failure, s)
      | .proceed _ => some (.ok (searchRows s.store.db.rows origin destination date), s)
  | .get key => some (s.redis.payload key, s)
  | .del key => some ((), s.del i key)
  | .setIfNewer key version payload =>
      some ((), { s with redis := s.redis.setIfNewer key version payload })
  | .setVersionIfNewer key version => some ((), s.setVersionIfNewer i key version)

/-- The committed rows `rows`, an empty cache and no request. -/
def ServerState.ofRows (rows : Rows) : ServerState :=
  ⟨State.ofRows rows, .empty, fun _ => none, fun _ => false⟩

/-- The service with a cache. -/
def service (ids : UuidText) :
    Service Command Reply RpcError Response Request Choice Empty ServerState where
  handler := handle ids true
  exec := exec
  close i s := { s with store := { s.store with db := s.store.db.rollback i } }
  outside change := change.elim

abbrev CachePool := Pool Command Reply RpcError Response Request ServerState

abbrev CacheEvent := Event Request Choice Empty

/-! ## The texts of UUIDs -/

def hexDigit (c : Char) : Option Nat :=
  if '0' ≤ c ∧ c ≤ '9' then some (c.toNat - '0'.toNat)
  else if 'a' ≤ c ∧ c ≤ 'f' then some (c.toNat - 'a'.toNat + 10)
  else if 'A' ≤ c ∧ c ≤ 'F' then some (c.toNat - 'A'.toNat + 10)
  else none

def hexNumber (digits : List Char) : Option Uuid :=
  digits.foldlM (fun n c => (hexDigit c).map fun digit => 16 * n + digit) 0

/-- Groups of 8, 4, 4, 4 and 12 digits. -/
def dashed (cs : List Char) : Option Uuid :=
  if cs.length = 36 ∧ [8, 13, 18, 23].all (fun i => cs[i]? == some '-') then
    hexNumber ((((cs.eraseIdx 23).eraseIdx 18).eraseIdx 13).eraseIdx 8)
  else none

/-- The texts are groups of digits, the same in braces, and 32 digits. -/
def parseUuid (text : String) : Option Uuid :=
  let cs := text.toList
  if cs.length = 32 then hexNumber cs
  else if cs.head? = some '\x7b' ∧ cs.getLast? = some '\x7d' then dashed cs.tail.dropLast
  else dashed cs

def hexDigits : Nat → Uuid → List Char
  | 0, _ => []
  | width + 1, n => hexDigits width (n / 16) ++ [(n % 16).digitChar]

def formatUuid (id : Uuid) : String :=
  let cs := hexDigits 32 id
  String.ofList (cs.take 8 ++ '-' :: (cs.drop 8).take 4 ++ '-' :: (cs.drop 12).take 4 ++
    '-' :: (cs.drop 16).take 4 ++ '-' :: cs.drop 20)

def uuidText : UuidText := ⟨parseUuid, formatUuid⟩

end SoaHomework.FlightCache
