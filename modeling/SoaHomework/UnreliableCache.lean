import SoaHomework.CachedAnswers
import SoaHomework.FlightAtomicity
import SoaHomework.SearchKeys

/-!
# A cache that cannot be relied on

The four methods of the server over a Redis that fails, loses keys and lets payloads
expire: a command may fail without an effect, or have its effect while its reply is
lost, and the server goes on in both cases. Time passes between the commands, and an
operator may change the status of a flight without telling the cache.

To its clients the server is then still a table of flights (`timelineStore`): seats are
reserved and released in the rows as they are, and what is looked up is found in the
rows as they are, or as they were until a bounded time ago. Only searches with a ':' in
a name share their cache keys, and then their answers, with other searches.
-/

namespace SoaHomework.FlightCache.Unreliable

open StatementProgram FlightService Grpc VersionedCache

/-! ## Execution -/

/-- What becomes of a statement or a command. -/
inductive Fate where
  | proceed (generated : Uuid)
  | failure
  /-- Redis has executed the command, but its reply does not arrive. -/
  | unanswered

/-- The database and Redis, with the time in milliseconds and, for each payload, the time
    at which it expires. The last two fields are a history that no command reads: when
    each request has last read the database, and the committed rows that have been
    replaced, with the time until which they were there. -/
structure Deployment where
  store : State
  redis : Redis
  expires : CacheKey → Int
  clock : Int
  readAt : Nat → Int
  past : List (Rows × Int)

instance (k : Key) : DecidableEq (Row k) :=
  match k with
  | .flight _ => inferInstanceAs (DecidableEq Flight)
  | .reservation _ => inferInstanceAs (DecidableEq Reservation)

/-- The store is replaced, and with it perhaps the committed rows. -/
def Deployment.replaced (s : Deployment) (store : State) : Deployment :=
  { s with
    store := store
    past :=
      if store.db.rows = s.store.db.rows then s.past
      else (s.store.db.rows, s.clock) :: s.past }

/-- Request `i` has read the database. -/
def Deployment.reads (s : Deployment) (i : Nat) : Deployment :=
  { s with readAt := Function.update s.readAt i s.clock }

/-- The state after a statement of request `i` that has left the store in `store`. -/
def Deployment.afterStatement (s : Deployment) (i : Nat) (statement : Statement)
    (store : State) : Deployment :=
  match statement with
  | .selectFlight _ => (s.reads i).replaced store
  | _ => s.replaced store

/-- `SET ... PX ttl`, if the version guard admits it. -/
def Deployment.setIfNewer (ttl : Int) (s : Deployment) (key : CacheKey) (version : Int)
    (payload : Payload) : Deployment :=
  { s with
    redis := s.redis.setIfNewer key version payload
    expires :=
      if s.redis.admits key version then Function.update s.expires key (s.clock + ttl)
      else s.expires }

def Deployment.get (s : Deployment) (key : CacheKey) : Option Payload :=
  if s.clock < s.expires key then s.redis.payload key else none

def exec (ttl : Int) (i : Nat) (command : Command) (fate : Fate) (s : Deployment) :
    Option (Reply command × Deployment) :=
  match command, fate with
  | .db statement, .proceed generated =>
      (proceed i generated s.store statement).map fun (answer, store) =>
        (answer, s.afterStatement i statement store)
  | .db _, .failure => some (.error .failure, s)
  | .db _, .unanswered => none
  | .searchFlights origin destination date, .proceed _ =>
      some (.ok (searchRows s.store.db.rows origin destination date), s.reads i)
  | .searchFlights _ _ _, .failure => some (.error .failure, s)
  | .searchFlights _ _ _, .unanswered => none
  | .get key, .proceed _ => some (s.get key, s)
  | .get _, _ => some (none, s)
  | .del _, .failure => some ((), s)
  | .del key, _ => some ((), { s with redis := s.redis.delete key })
  | .setIfNewer _ _ _, .failure => some ((), s)
  | .setIfNewer key version payload, _ => some ((), s.setIfNewer ttl key version payload)
  | .setVersionIfNewer _ _, .failure => some ((), s)
  | .setVersionIfNewer key version, _ =>
      some ((), { s with redis := s.redis.setVersionIfNewer key version })

inductive Outside where
  | elapse (time : Nat)
  /-- A payload is evicted, or lost with a failover. -/
  | forget (key : CacheKey)
  | forgetVersion (key : CacheKey)
  | changeStatus (change : StatusChange)

def outside (change : Outside) (s : Deployment) : Option Deployment :=
  match change with
  | .elapse time => some { s with clock := s.clock + time }
  | .forget key => some { s with redis := s.redis.delete key }
  | .forgetVersion key => some { s with redis := s.redis.deleteVersion key }
  | .changeStatus change => (changeStatus change s.store).map s.replaced

def service (ids : UuidText) (ttl : Int) :
    Service Command Reply RpcError Response Request Fate Outside Deployment where
  handler := handle ids true
  exec := exec ttl
  close i s := { s with store := { s.store with db := s.store.db.rollback i } }
  outside := outside

abbrev DeploymentPool := Pool Command Reply RpcError Response Request Deployment

def Deployment.ofRows (rows : Rows) (clock : Int) : Deployment :=
  ⟨State.ofRows rows, .empty, fun _ => 0, clock, fun _ => 0, []⟩

/-- Whatever is stored in the cache has been read at most `patience` before. -/
def storesWithin (patience : Int) (pool : DeploymentPool) : Event Request Fate Outside → Bool
  | .step i _ =>
      match pool.program? i with
      | some (.step (.setIfNewer _ _ _) _) =>
          decide (pool.shared.clock ≤ pool.shared.readAt i + patience)
      | _ => true
  | _ => true

/-! ## The table as it is and was -/

/-- The rows as they are, and as they were until which time. -/
structure Timeline where
  now : Int
  current : Rows
  past : List (Rows × Int)

def Deployment.timeline (s : Deployment) : Timeline := ⟨s.clock, s.store.db.rows, s.past⟩

def Timeline.replaced (t : Timeline) (rows : Rows) : Timeline :=
  ⟨t.now, rows, if rows = t.current then t.past else (t.current, t.now) :: t.past⟩

/-- The rows as they are, or as they were less than `bound` ago. -/
def Timeline.asOf (bound : Int) (t : Timeline) : Option Nat → Option Rows
  | none => some t.current
  | some k =>
      match t.past[k]? with
      | some (rows, last) => if t.now < last + bound then some rows else none
      | none => none

/-- What a request that passes the checks of its method is about. -/
inductive Question where
  | search (req : SearchFlightsRequest)
  | flight (id : Uuid)
  | change (request : FlightService.Request) (onError : StoreError → RpcError)

def parsed (ids : UuidText) (text : String) (error : RpcError) : Except RpcError Uuid :=
  match ids.parse text with
  | some id => .ok id
  | none => .error error

/-- The checks of the methods. -/
def question (ids : UuidText) : Request → Except RpcError Question
  | .searchFlights req =>
      if req.given then .ok (.search req)
      else .error ⟨.invalidArgument, "origin/destination обязательны"⟩
  | .getFlight flightId => do
      if flightId = "" then .error ⟨.invalidArgument, "flight_id обязателен"⟩ else
      let id ← parsed ids flightId ⟨.invalidArgument, "flight_id должен быть UUID"⟩
      .ok (.flight id)
  | .reserveSeats flightId bookingId seatCount => do
      if flightId = "" ∨ bookingId = "" then
        .error ⟨.invalidArgument, "flight_id и booking_id обязательны"⟩ else
      let id ← parsed ids flightId ⟨.invalidArgument, "flight_id должен быть UUID"⟩
      let bookingID ← parsed ids bookingId ⟨.invalidArgument, "booking_id должен быть UUID"⟩
      if h : 0 < seatCount then
        .ok (.change (.reserveSeats id bookingID seatCount h) Server.reserveError)
      else .error ⟨.invalidArgument, "seat_count должен быть > 0"⟩
  | .releaseReservation bookingId => do
      if bookingId = "" then .error ⟨.invalidArgument, "booking_id обязателен"⟩ else
      let bookingID ← parsed ids bookingId ⟨.invalidArgument, "booking_id должен быть UUID"⟩
      .ok (.change (.releaseReservation bookingID) Server.releaseError)

/-- What is left open of a request: the moment as of which it is answered, or that it
    fails. -/
inductive Serving where
  | look (moment : Option Nat)
  /-- The answer to another search, which has the same key. -/
  | shared (moment : Option Nat) (asked : SearchFlightsRequest)
  | change (choice : ServeChoice)
  | failure
deriving Inhabited

/-- What is found of a flight in the rows. -/
def shown (ids : UuidText) (id : Uuid) (rows : Rows) : Except RpcError Response :=
  match (rows.lookup (.flight id) : Option Flight) with
  | none => .error (Server.getError .notFound)
  | some row => .ok (.flight (toProtoFlight ids ⟨id, row⟩))

def listed (ids : UuidText) (req : SearchFlightsRequest) (rows : Rows) : Response :=
  .flights ((req.found rows).map (toProtoFlight ids))

theorem listed_of_key {ids : UuidText} {req asked : SearchFlightsRequest}
    (hplain : req.plain = true) (h : asked.key = req.key) (rows : Rows) :
    listed ids asked rows = listed ids req rows := by
  obtain ⟨horigin, hdestination, hdate⟩ := SearchFlightsRequest.asked_of_key hplain h
  simp only [listed, SearchFlightsRequest.found, horigin, hdestination, hdate]

/-- The answer to a transaction with the given outcome. -/
def answered (onError : StoreError → RpcError) :
    Except StoreError Reservation → Except RpcError Response
  | .ok r => .ok (.reservation r)
  | .error error => .error (onError error)

def answer (ids : UuidText) (bound : Int) :
    Question → Serving → Timeline → Option (Except RpcError Response × Timeline)
  | .search req, .look moment, t =>
      (t.asOf bound moment).map fun rows => (.ok (listed ids req rows), t)
  | .search req, .shared moment asked, t =>
      if req.plain = false ∧ asked.key = req.key then
        (t.asOf bound moment).map fun rows => (.ok (listed ids asked rows), t)
      else none
  | .search _, .failure, t => some (.error ⟨.internal, "ошибка поиска"⟩, t)
  | .flight id, .look moment, t =>
      (t.asOf bound moment).map fun rows => (shown ids id rows, t)
  | .flight _, .failure, t => some (.error ⟨.internal, "ошибка получения"⟩, t)
  | .change request onError, .change choice, t =>
      (serve request choice t.current).map fun (outcome, rows) =>
        (answered onError outcome, t.replaced rows)
  | _, _, _ => none

def timelineStore (ids : UuidText) (bound : Int) :
    Sequential RpcError Response Request Serving Outside Timeline where
  serve request serving t :=
    match question ids request with
    | .error error => some (.error error, t)
    | .ok q => answer ids bound q serving t
  outside
    | .elapse time, t => some { t with now := t.now + time }
    | .changeStatus change, t => (setStatus change t.current).map t.replaced
    | _, t => some t

end SoaHomework.FlightCache.Unreliable
