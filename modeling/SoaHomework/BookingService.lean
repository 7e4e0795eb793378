import SoaHomework.BreakerCalls
import SoaHomework.FlightRpc

/-!
# The booking service

The HTTP handlers `CreateBooking` and `CancelBooking` of
`internal/http/handlers.go` with the booking store, over the flight service.
Each attempt of a call meets a fate of its own: it may be answered, be executed
without its answer arriving, be lost, or stay under way and be executed later.
Requests interleave at the granularity of attempts, statements of the booking
database and operations of the circuit breaker.
-/

namespace SoaHomework.BookingService

open StatementProgram Grpc GrpcClient
open FlightService (Uuid IdText Rows Rpc Ledger Execution StatusChange)

/-! ## The booking store -/

inductive BookingStatus where
  | confirmed
  | cancelled
deriving DecidableEq, Repr

/-- A row of `bookings`, without its timestamps. The user's id is the text that
    the request brings. -/
structure Booking where
  id : Uuid
  userID : IdText
  flightID : Uuid
  passengerName : String
  passengerEmail : String
  seatCount : Int
  totalPriceCents : Int
  status : BookingStatus
deriving DecidableEq, Repr

abbrev Bookings := AList fun _ : Uuid => Booking

/-- The text columns take every character but NUL. -/
def storableText (text : String) : Bool := !text.toList.contains (Char.ofNat 0)

/-- The column types and `CHECK` constraints of `bookings` that a row can
    violate: `user_id uuid`, `seat_count int`, `total_price_cents int` and the
    texts. -/
def Booking.storable (b : Booking) : Bool :=
  b.userID.isUuid && decide (0 < b.seatCount) && decide (b.seatCount < 2 ^ 31) &&
    decide (0 < b.totalPriceCents) && decide (b.totalPriceCents < 2 ^ 31) &&
    storableText b.passengerName && storableText b.passengerEmail

inductive StoreError where
  | notFound
  | failure
deriving DecidableEq, Repr

/-! ## Steps of a request -/

inductive Op where
  | allow
  | onSuccess
  | onFailure (err : CallError)
  /-- one attempt of a method call -/
  | attempt (rpc : Rpc)
  /-- `uuid.NewString()` -/
  | newUuid
  | insertBooking (b : Booking)
  | getBooking (id : Uuid)
  | updateBookingStatus (id : Uuid) (status : BookingStatus)

@[reducible] def Res : Op → Type
  | .allow => Bool
  | .onSuccess => Unit
  | .onFailure _ => Unit
  | .attempt rpc => Except CallError rpc.Reply
  | .newUuid => Uuid
  | .insertBooking _ => Except StoreError Booking
  | .getBooking _ => Except StoreError Booking
  | .updateBookingStatus _ _ => Except StoreError Booking

/-- The booking database, the flight service's ledger, the circuit breaker and
    the attempts that are still under way. The last three fields are a history
    that no step reads but `newUuid`: the request that each id was made for, the
    attempts that were made, and those that took effect. -/
structure State where
  bookings : Bookings
  ledger : Ledger
  breaker : CircuitBreaker
  clock : Int
  late : List (Nat × Rpc)
  owner : Uuid → Option Nat
  issued : List (Nat × Rpc)
  effective : List (Nat × Rpc)

inductive Fate where
  | answered (how : Execution)
  | unanswered (how : Execution) (err : TransportError)
  | lost (err : TransportError)
  | late (err : TransportError)

inductive Choice where
  | proceed
  | failure
  | generated (id : Uuid)
  | fate (fate : Fate)

/-- The state after the flight service has executed an attempt of request `i`. -/
def State.record (s : State) (i : Nat) (rpc : Rpc) (how : Execution) (ledger : Ledger) : State :=
  { s with
    ledger := ledger
    effective := if rpc.effective how s.ledger then (i, rpc) :: s.effective else s.effective }

def State.deliver (s : State) (i : Nat) (rpc : Rpc) (how : Execution) :
    Option (Except RpcError rpc.Reply × State) :=
  (rpc.run how s.ledger).map fun (result, ledger) => (result, s.record i rpc how ledger)

/-- Request `i` makes an attempt. -/
def State.issue (s : State) (i : Nat) (rpc : Rpc) : State :=
  { s with issued := (i, rpc) :: s.issued }

def State.meet (s : State) (i : Nat) (rpc : Rpc) :
    Fate → Option (Except CallError rpc.Reply × State)
  | .answered how =>
      (s.deliver i rpc how).map fun (result, s') => (result.mapError CallError.status, s')
  | .unanswered how err => (s.deliver i rpc how).map fun (_, s') => (.error err.val, s')
  | .lost err => some (.error err.val, s)
  | .late err => some (.error err.val, { s with late := (i, rpc) :: s.late })

def execute (i : Nat) (op : Op) (choice : Choice) (s : State) : Option (Res op × State) :=
  match op, choice with
  | .allow, _ => some ((s.breaker.allow s.clock).1,
      { s with breaker := (s.breaker.allow s.clock).2 })
  | .onSuccess, _ => some ((), { s with breaker := s.breaker.onSuccess })
  | .onFailure err, _ => some ((), { s with breaker := s.breaker.onFailure err s.clock })
  | .attempt rpc, .fate fate => (s.issue i rpc).meet i rpc fate
  | .newUuid, .generated id =>
      -- an id that has been made before is never made again
      if s.owner id = none then
        some (id, { s with owner := Function.update s.owner id (some i) })
      else none
  | .insertBooking b, .proceed =>
      if b.storable && (s.bookings.lookup b.id).isNone then
        some (.ok b, { s with bookings := s.bookings.insert b.id b })
      else some (.error .failure, s)
  | .getBooking id, .proceed =>
      some ((s.bookings.lookup id).elim (.error .notFound) .ok, s)
  | .updateBookingStatus id status, .proceed =>
      match s.bookings.lookup id with
      | none => some (.error .notFound, s)
      | some b =>
          some (.ok { b with status := status },
            { s with bookings := s.bookings.insert id { b with status := status } })
  | .insertBooking _, .failure => some (.error .failure, s)
  | .getBooking _, .failure => some (.error .failure, s)
  | .updateBookingStatus _ _, .failure => some (.error .failure, s)
  | _, _ => none

/-! ## The handlers -/

structure HttpError where
  status : Nat
  error : String
deriving DecidableEq, Repr

structure BookingResponse where
  id : Uuid
  userID : IdText
  flightID : Uuid
  passengerName : String
  passengerEmail : String
  seatCount : Int
  totalPriceCents : Int
  status : BookingStatus
deriving DecidableEq, Repr

structure HttpReply where
  status : Nat
  body : BookingResponse
deriving DecidableEq, Repr

/-- A handler ends with an answer or, early, with an error. -/
abbrev Handler := Program Op Res HttpError

structure CreateBookingRequest where
  userID : IdText
  flightID : IdText
  passengerName : String
  passengerEmail : String
  seatCount : Int
deriving DecidableEq, Repr

def toBookingResponse (b : Booking) : BookingResponse where
  id := b.id
  userID := b.userID
  flightID := b.flightID
  passengerName := b.passengerName
  passengerEmail := b.passengerEmail
  seatCount := b.seatCount
  totalPriceCents := b.totalPriceCents
  status := b.status

def writeGrpcError : CallError → HttpError
  | .other => ⟨500, "grpc ошибка"⟩
  | .status st =>
      match st.code with
      | .notFound => ⟨404, st.message⟩
      | .resourceExhausted => ⟨409, st.message⟩
      | .alreadyExists => ⟨409, st.message⟩
      | .invalidArgument => ⟨400, st.message⟩
      | .unavailable | .deadlineExceeded => ⟨503, "сервис временно недоступен"⟩
      | _ => ⟨500, st.message⟩

def isAlreadyExists : CallError → Bool
  | .status st => st.code == .alreadyExists
  | .other => false

/-- One attempt of a call. -/
def attemptCall (rpc : Rpc) : Program Op Res CallError rpc.Reply :=
  .step (.attempt rpc) fun
    | .ok resp => .ret resp
    | .error err => .fail err

/-- A method of the client. -/
def call (rpc : Rpc) : Program Op Res CallError rpc.Reply :=
  callWithRetry (Program.perform Op.allow) (Program.perform Op.onSuccess)
    (fun err => Program.perform (Op.onFailure err)) (attemptCall rpc)

/-- A call whose error is written as the answer. -/
def callOrWrite (rpc : Rpc) : Handler rpc.Reply := do
  match ← (call rpc).attempt with
  | .error err => .fail (writeGrpcError err)
  | .ok resp => return resp

def readUuid (text : IdText) (error : HttpError) : Handler Uuid :=
  match text with
  | .uuid id => .ret id
  | _ => .fail error

/-- The call of `ReserveSeats`, for which an existing reservation is as good as
    a new one. -/
def reserve (flightID bookingID : Uuid) (seatCount : Int) : Handler Unit := do
  match ← (call (.reserveSeats flightID bookingID seatCount)).attempt with
  | .ok _ => return ()
  | .error err => Program.raiseIf (!isAlreadyExists err) (writeGrpcError err)

def createBooking (body : Option CreateBookingRequest) : Handler HttpReply := do
  match body with
  | none => .fail ⟨400, "неверный json"⟩
  | some req => do
      Program.raiseIf (req.userID == .empty || req.flightID == .empty ||
        req.passengerName == "" || req.passengerEmail == "" || decide (req.seatCount ≤ 0))
        ⟨400, "неверные поля"⟩
      let flightID ← readUuid req.flightID ⟨400, "flight_id должен быть UUID"⟩
      let flight ← callOrWrite (.getFlight flightID)
      let bookingID ← Program.perform Op.newUuid
      reserve flightID bookingID req.seatCount
      let booking : Booking := {
        id := bookingID
        userID := req.userID
        flightID := flightID
        passengerName := req.passengerName
        passengerEmail := req.passengerEmail
        seatCount := req.seatCount
        totalPriceCents := req.seatCount * flight.priceCents
        status := .confirmed }
      match ← Program.perform (Op.insertBooking booking) with
      | .error _ => do
          let _ ← (call (.releaseReservation bookingID)).attempt
          .fail ⟨500, "ошибка создания"⟩
      | .ok created => return ⟨201, toBookingResponse created⟩

/-- `Store.GetBooking` with the answers to its errors. -/
def readBooking (id : Uuid) : Handler Booking := do
  match ← Program.perform (Op.getBooking id) with
  | .error .notFound => .fail ⟨404, "не найдено"⟩
  | .error .failure => .fail ⟨500, "ошибка получения"⟩
  | .ok booking => return booking

/-- The end of a cancellation. -/
def storeCancelled (id : Uuid) : Handler HttpReply := do
  match ← Program.perform (Op.updateBookingStatus id .cancelled) with
  | .error _ => .fail ⟨500, "ошибка отмены"⟩
  | .ok updated => return ⟨200, toBookingResponse updated⟩

def cancelBooking (id : IdText) : Handler HttpReply := do
  let id ← readUuid id ⟨400, "id должен быть UUID"⟩
  let booking ← readBooking id
  Program.raiseIf (booking.status != .confirmed) ⟨400, "уже отменено"⟩
  let _ ← callOrWrite (.releaseReservation id)
  storeCancelled id

/-! ## The service -/

inductive Request where
  | createBooking (body : Option CreateBookingRequest)
  | cancelBooking (id : IdText)

def handle : Request → Handler HttpReply
  | .createBooking body => createBooking body
  | .cancelBooking id => cancelBooking id

/-- What happens outside the requests: time passes, an attempt that was under
    way is executed or lost, an operator sets the status of a flight. -/
inductive Outside where
  | elapse (time : Nat)
  | deliver (k : Nat) (how : Execution)
  | drop (k : Nat)
  | changeStatus (change : StatusChange)

def outside (change : Outside) (s : State) : Option State :=
  match change with
  | .elapse time => some { s with clock := s.clock + time }
  | .deliver k how =>
      match s.late[k]? with
      | none => none
      | some (i, rpc) =>
          let arrived : State := { s with late := s.late.eraseIdx k }
          (arrived.deliver i rpc how).map Prod.snd
  | .drop k => some { s with late := s.late.eraseIdx k }
  | .changeStatus change =>
      (s.ledger.changeStatus change).map fun ledger => { s with ledger := ledger }

def service : Service Op Res HttpError HttpReply Request Choice Outside State where
  handler := handle
  exec := execute
  close _ s := s
  outside := outside

abbrev BookingPool := Pool Op Res HttpError HttpReply Request State

/-- The services at their start, with the given flights. -/
def State.start (rows : Rows) (cfg : CBConfig) (clock : Int) : State where
  bookings := ∅
  ledger := ⟨rows, []⟩
  breaker := newCircuitBreaker cfg
  clock := clock
  late := []
  owner _ := none
  issued := []
  effective := []

end SoaHomework.BookingService
