import SoaHomework.FlightLedger
import SoaHomework.Grpc

/-!
# The flight service's gRPC server

`ReserveSeats` and `ReleaseReservation` of `internal/grpcserver/server.go`:
the checks of the request, the transaction, and the status code that each
store error becomes. When a cache is configured, a successful request also
reads the flight again to refresh the cache; the commands to the cache itself
are not modelled, since no answer of these two methods depends on them.
-/

namespace SoaHomework.FlightService

open StatementProgram Grpc

/-- What `uuid.Parse` makes of a string. A spelling that it accepts is one that
    the database accepts as well. -/
inductive IdText where
  | empty
  | malformed
  | uuid (id : Uuid)
deriving DecidableEq, Repr

def IdText.isUuid : IdText → Bool
  | .uuid _ => true
  | _ => false

structure ReserveSeatsRequest where
  flightId : IdText
  bookingId : IdText
  seatCount : Int
deriving DecidableEq, Repr

structure ReleaseReservationRequest where
  bookingId : IdText
deriving DecidableEq, Repr

abbrev ServerProgram := Program Statement Answer RpcError

namespace Server

def reserveError : StoreError → RpcError
  | .notFound => ⟨.notFound, "рейс не найден"⟩
  | .noSeats => ⟨.resourceExhausted, "нет мест"⟩
  | .alreadyExists => ⟨.alreadyExists, "резерв уже существует"⟩
  | .db _ => ⟨.internal, "ошибка резерва"⟩

def getError : StoreError → RpcError
  | .notFound => ⟨.notFound, "рейс не найден"⟩
  | _ => ⟨.internal, "ошибка получения"⟩

def releaseError : StoreError → RpcError
  | .notFound => ⟨.notFound, "резерв не найден"⟩
  | _ => ⟨.internal, "ошибка отмены"⟩

/-- `uuid.Parse`, whose failure is answered with `error`. -/
def parse (text : IdText) (error : RpcError) : ServerProgram Uuid :=
  match text with
  | .uuid id => .ret id
  | _ => .fail error

/-- The flight is read again, for the cache alone. -/
def refresh (cached : Bool) (flightID : Uuid) : ServerProgram Unit :=
  if cached then do
    let _ ← (Store.getFlight flightID).attempt
    return ()
  else return ()

/-- `hit` is what the cache has for the flight. -/
def getFlight (hit : Option Flight) (flightId : IdText) : ServerProgram Flight := do
  Program.raiseIf (flightId == .empty) ⟨.invalidArgument, "flight_id обязателен"⟩
  let flightID ← parse flightId ⟨.invalidArgument, "flight_id должен быть UUID"⟩
  match hit with
  | some f => return f
  | none =>
      match ← (Store.getFlight flightID).attempt with
      | .error error => .fail (getError error)
      | .ok f => return f

def reserveSeats (cached : Bool) (req : ReserveSeatsRequest) : ServerProgram Reservation := do
  Program.raiseIf (req.flightId == .empty || req.bookingId == .empty)
    ⟨.invalidArgument, "flight_id и booking_id обязательны"⟩
  let flightID ← parse req.flightId ⟨.invalidArgument, "flight_id должен быть UUID"⟩
  let bookingID ← parse req.bookingId ⟨.invalidArgument, "booking_id должен быть UUID"⟩
  Program.raiseIf (decide (req.seatCount ≤ 0))
    ⟨.invalidArgument, "seat_count должен быть > 0"⟩
  match ← (Store.reserveSeats flightID bookingID req.seatCount).attempt with
  | .error error => .fail (reserveError error)
  | .ok r =>
      refresh cached flightID
      return r

def releaseReservation (cached : Bool) (req : ReleaseReservationRequest) :
    ServerProgram Reservation := do
  Program.raiseIf (req.bookingId == .empty) ⟨.invalidArgument, "booking_id обязателен"⟩
  let bookingID ← parse req.bookingId ⟨.invalidArgument, "booking_id должен быть UUID"⟩
  match ← (Store.releaseReservation bookingID).attempt with
  | .error error => .fail (releaseError error)
  | .ok r =>
      refresh cached r.flightID
      return r

end Server

/-! ## A repeated ReserveSeats -/

/-- How the environment executes the statements of one transaction: the
    statements in `fails` fail, the others wait for no answer from outside. -/
def executeAlone (i : Nat) (generated : Uuid) (fails : Statement → Bool)
    (statement : Statement) (s : State) : Option (Answer statement × State) :=
  execute i statement (if fails statement then .failure else .proceed generated) s

variable {i : Nat} {generated : Uuid} {fails : Statement → Bool} {s : State}

theorem alone_query {β : Type} (statement : Statement)
    (next : Result statement → Program Statement Answer StoreError β) :
    (query statement >>= next).alone (executeAlone i generated fails) s =
      match executeAlone i generated fails statement s with
      | none => none
      | some (.ok result, s') => (next result).alone (executeAlone i generated fails) s'
      | some (.error error, s') => some (.error (.db error), s') := by
  have hquery : query statement >>= next =
      .step statement fun answer => returnError answer >>= next := rfl
  rw [hquery]
  simp only [Program.alone]
  cases executeAlone i generated fails statement s with
  | none => rfl
  | some result =>
      obtain ⟨answer, s'⟩ := result
      cases answer with
      | ok result => rfl
      | error error => rfl

/-- What the transaction answers when the booking has a reservation already.
    The guards before the one that looks for it come first. -/
def repeatOutcome (fails : Statement → Bool) (bookingID : Uuid) (seatCount : Int)
    (row : Flight) : StoreError :=
  if row.status ≠ .scheduled then .notFound
  else if row.availableSeats < seatCount then .noSeats
  else if fails (.selectReservation bookingID) then .db .failure
  else .alreadyExists

/-- The transaction of a repeated request, on a flight whose row nobody else
    has locked or is waited for. -/
theorem alone_reserveSeats_repeat {flightID id : Uuid} {seatCount : Int} {row : Flight}
    {r : Reservation} (hidle : s.db.Idle i)
    (hrow : s.db.rows.lookup (.flight flightID) = some row)
    (hr : s.db.rows.lookup (.reservation id) = some r) :
    (Store.reserveSeats flightID r.bookingID seatCount).alone
        (executeAlone i generated fails) s =
      if fails (.selectFlightForUpdate flightID) then some (.error (.db .failure), s)
      else (s.db.acquire i (.inl (.flight flightID))).map fun db =>
        (.error (repeatOutcome fails r.bookingID seatCount row), { s with db }) := by
  have hread : s.db.read i (.flight flightID) = some row := by
    rw [read_of_pending_empty hidle.pending, hrow]
  rw [Store.reserveSeats, alone_query]
  cases hselect : fails (.selectFlightForUpdate flightID) with
  | true => simp [executeAlone, hselect, execute]
  | false =>
      simp only [executeAlone, hselect, execute, proceed, RowStore.selectForUpdate, hread]
      cases hacquire : s.db.acquire i (.inl (.flight flightID)) with
      | none => simp
      | some db =>
          obtain ⟨hrows, hpending, _, _⟩ := RowStore.acquire_spec hacquire
          have hview : db.view i = s.db.view i := by
            rw [RowStore.view, RowStore.view, hrows, hpending]
          obtain ⟨id', r', hfound⟩ : ∃ id' r',
              findReservation (db.view i) r.bookingID = some (id', r') := by
            have hseen : (db.view i).lookup (.reservation id) = some r := by
              rw [hview]
              exact (read_of_pending_empty hidle.pending).trans hr
            exact findReservation_of_lookup hseen
          simp only [Option.map_some, repeatOutcome]
          by_cases hstatus : row.status = .scheduled
          · by_cases hseats : row.availableSeats < seatCount
            · simp [hstatus, hseats, Program.raiseIf]
            · simp only [hstatus, hseats, Program.raiseIf, bne_self_eq_false, decide_false,
                Bool.false_eq_true, if_false, Program.ret_bind, ne_eq, not_true_eq_false]
              rw [alone_query]
              cases hfails : fails (.selectReservation r.bookingID) with
              | true => simp [hfails, executeAlone, execute]
              | false => simp [hfails, hfound, executeAlone, execute, proceed]
          · simp [hstatus, Program.raiseIf]

/-- The request that has made the reservation `r`, once more. -/
def repeatOf (r : Reservation) : ReserveSeatsRequest :=
  ⟨.uuid r.flightID, .uuid r.bookingID, r.seatCount⟩

theorem alone_server_reserveSeats (cached : Bool) {flightID bookingID : Uuid} {seatCount : Int}
    (hpositive : 0 < seatCount) :
    (Server.reserveSeats cached ⟨.uuid flightID, .uuid bookingID, seatCount⟩).alone
        (executeAlone i generated fails) s =
      match (Store.reserveSeats flightID bookingID seatCount).alone
        (executeAlone i generated fails) s with
      | none => none
      | some (.error error, s') => some (.error (Server.reserveError error), s')
      | some (.ok reserved, s') =>
          (Server.refresh cached flightID >>= fun _ => .ret reserved).alone
            (executeAlone i generated fails) s' := by
  have hguards : Server.reserveSeats cached ⟨.uuid flightID, .uuid bookingID, seatCount⟩ =
      (Store.reserveSeats flightID bookingID seatCount).attempt >>= fun outcome =>
        match outcome with
        | .error error => .fail (Server.reserveError error)
        | .ok reserved => Server.refresh cached flightID >>= fun _ => .ret reserved := by
    have hcount : decide (seatCount ≤ 0) = false := decide_eq_false (Int.not_le.mpr hpositive)
    unfold Server.reserveSeats
    rw [hcount]
    rfl
  rw [hguards, Program.alone_bind, Program.alone_attempt]
  cases (Store.reserveSeats flightID bookingID seatCount).alone
      (executeAlone i generated fails) s with
  | none => rfl
  | some outcome =>
      obtain ⟨result, s'⟩ := outcome
      cases result with
      | ok reserved => rfl
      | error error => rfl

theorem repeatOutcome_alreadyExists (bookingID : Uuid) (seatCount : Int) (row : Flight) :
    (Server.reserveError (repeatOutcome fails bookingID seatCount row)).code = .alreadyExists ↔
      row.status = .scheduled ∧ seatCount ≤ row.availableSeats ∧
        fails (.selectReservation bookingID) = false := by
  unfold repeatOutcome
  by_cases hstatus : row.status = .scheduled
  · by_cases hseats : row.availableSeats < seatCount
    · simp [hstatus, hseats, Server.reserveError]
    · cases hfails : fails (.selectReservation bookingID) with
      | true => simp [hstatus, hseats, Server.reserveError]
      | false => simp [hstatus, hseats, Server.reserveError, Int.not_lt.mp hseats]
  · simp [hstatus, Server.reserveError]

/-- The repeated request, executed in a state of the store in which it waits
    for no lock. It is answered as a repeat should be exactly when the two
    guards before the look-up of the booking let it through. -/
theorem reserveSeats_repeat (rows₀ : Rows) (hschema : Schema rows₀) (pool : FlightPool)
    (hsteps : service.Steps Service.anyStep (Pool.initial (State.ofRows rows₀)) pool)
    (id : Uuid) (r : Reservation)
    (hr : pool.shared.db.rows.lookup (.reservation id) = some r) (cached : Bool)
    (generated : Uuid) (fails : Statement → Bool) :
    (pool.shared.db.locks (.inl (.flight r.flightID)) = none →
      ((Server.reserveSeats cached (repeatOf r)).alone
        (executeAlone pool.threads.length generated fails) pool.shared).isSome) ∧
      ∀ result s', (Server.reserveSeats cached (repeatOf r)).alone
          (executeAlone pool.threads.length generated fails) pool.shared = some (result, s') →
        (((∃ error, result = .error error ∧ error.code = .alreadyExists) ∧
            s'.db.rows = pool.shared.db.rows) ↔
          (∃ row : Flight, pool.shared.db.rows.lookup (.flight r.flightID) = some row ∧
            row.status = .scheduled ∧ r.seatCount ≤ row.availableSeats) ∧
          fails (.selectFlightForUpdate r.flightID) = false ∧
          fails (.selectReservation r.bookingID) = false) := by
  have hpool := holds_of_steps hschema hsteps
  have hidle := hpool.unused pool.threads.length (Nat.le_refl _)
  obtain ⟨row, hrow⟩ := Option.isSome_iff_exists.mp (hpool.inv.2.parent id r hr)
  rw [repeatOf, alone_server_reserveSeats cached (hpool.inv.2.positive id r hr),
    alone_reserveSeats_repeat hidle hrow hr]
  cases hselect : fails (.selectFlightForUpdate r.flightID) with
  | true =>
      refine ⟨fun _ => rfl, fun result s' h => ?_⟩
      simp only [if_true, Option.some.injEq, Prod.mk.injEq] at h
      obtain ⟨rfl, rfl⟩ := h
      simp [Server.reserveError]
  | false =>
      simp only [Bool.false_eq_true, if_false]
      cases hacquire : pool.shared.db.acquire pool.threads.length
          (.inl (.flight r.flightID)) with
      | none =>
          refine ⟨fun hfree => ?_, fun result s' h => by cases h⟩
          simp [RowStore.acquire, hfree] at hacquire
      | some db =>
          refine ⟨fun _ => rfl, fun result s' h => ?_⟩
          simp only [Option.map_some, Option.some.injEq, Prod.mk.injEq] at h
          obtain ⟨rfl, rfl⟩ := h
          have hrows : db.rows = pool.shared.db.rows := (RowStore.acquire_spec hacquire).1
          simp only [hrows, and_true, Except.error.injEq, exists_eq_left',
            repeatOutcome_alreadyExists, hrow, Option.some.injEq]
          constructor
          · rintro ⟨hstatus, hseats, hfails⟩
            exact ⟨⟨hstatus, hseats⟩, trivial, hfails⟩
          · rintro ⟨⟨hstatus, hseats⟩, _, hfails⟩
            exact ⟨hstatus, hseats, hfails⟩

/-- One reservation on the sample flight, from its request to its answer. -/
def reserveEvents (seatCount : Int) (positive : 0 < seatCount) :
    List (Event Request Choice StatusChange) :=
  [.start (.reserveSeats 1 7 seatCount positive), .step 0 (.proceed 0), .step 0 (.proceed 0),
    .step 0 (.proceed 0), .step 0 (.proceed 20), .step 0 (.proceed 0), .step 0 (.proceed 0)]

def reservedPool (seatCount : Int) (positive : 0 < seatCount) : Option FlightPool :=
  service.run (Pool.initial (State.ofRows sampleRows)) (reserveEvents seatCount positive)

theorem reserveSeats_repeat_sample : ∃ pool, reservedPool 2 (by decide) = some pool ∧
    ∃ result s', (Server.reserveSeats true (repeatOf ⟨1, 7, 2, .active⟩)).alone
        (executeAlone pool.threads.length 21 fun _ => false) pool.shared = some (result, s') ∧
      (∃ error, result = .error error ∧ error.code = .alreadyExists) ∧
      s'.db.rows = pool.shared.db.rows := by
  have hrun : (reservedPool 2 (by decide)).isSome := by decide
  have hr : ((reservedPool 2 (by decide)).get hrun).shared.db.rows.lookup (.reservation 20) =
      some (⟨1, 7, 2, .active⟩ : Reservation) := by decide +revert
  have hrow : ((reservedPool 2 (by decide)).get hrun).shared.db.rows.lookup (.flight 1) =
      some (changeSeats (-2) sampleFlight) := by decide +revert
  have hfree : ((reservedPool 2 (by decide)).get hrun).shared.db.locks (.inl (.flight 1)) =
      none := by decide +revert
  obtain ⟨hsome, hiff⟩ := reserveSeats_repeat sampleRows sampleRows_schema _
    (Service.Steps.of_run _ (Option.some_get hrun).symm) 20 ⟨1, 7, 2, .active⟩ hr true 21
    fun _ => false
  obtain ⟨⟨result, s'⟩, halone⟩ := Option.isSome_iff_exists.mp (hsome hfree)
  refine ⟨_, (Option.some_get hrun).symm, result, s', halone, ?_⟩
  exact (hiff result s' halone).mpr ⟨⟨_, hrow, by decide, by decide⟩, rfl, rfl⟩

/-- Three of four seats are reserved; the same request is then refused for
    lack of seats. -/
theorem reserveSeats_repeat_refused :
    ¬ ∀ pool : FlightPool,
      service.Steps Service.anyStep (Pool.initial (State.ofRows sampleRows)) pool →
      ∀ id (r : Reservation), pool.shared.db.rows.lookup (.reservation id) = some r →
      ∀ result s', (Server.reserveSeats true (repeatOf r)).alone
          (executeAlone pool.threads.length 21 fun _ => false) pool.shared =
            some (result, s') →
        (∃ error, result = .error error ∧ error.code = .alreadyExists) ∧
          s'.db.rows = pool.shared.db.rows := by
  intro hclaim
  have hrun : (reservedPool 3 (by decide)).isSome := by decide
  have hr : ((reservedPool 3 (by decide)).get hrun).shared.db.rows.lookup (.reservation 20) =
      some (⟨1, 7, 3, .active⟩ : Reservation) := by decide +revert
  have halone : ∃ s', (Server.reserveSeats true (repeatOf ⟨1, 7, 3, .active⟩)).alone
      (executeAlone ((reservedPool 3 (by decide)).get hrun).threads.length 21 fun _ => false)
      ((reservedPool 3 (by decide)).get hrun).shared =
        some (.error ⟨.resourceExhausted, "нет мест"⟩, s') := ⟨_, rfl⟩
  obtain ⟨s', halone⟩ := halone
  have hsteps := Service.Steps.of_run _ (Option.some_get hrun).symm
  obtain ⟨⟨error, herror, hcode⟩, _⟩ := hclaim _ hsteps 20 _ hr _ _ halone
  cases herror
  cases hcode

end SoaHomework.FlightService
