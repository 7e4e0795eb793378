import SoaHomework.Interleaving
import SoaHomework.RowStore

/-!
# The flight service's store

The tables `flights` and `seat_reservations` of the flight database and the
transactions of `internal/store/store.go` over them, statement by statement.
A transaction reads and writes through a row store at READ COMMITTED; the
constraints of the migration (`CHECK`, `UNIQUE (booking_id)`, the foreign key)
are checked by the statements that PostgreSQL checks them in. Any statement may
also fail for a reason of its own, and a request may be stopped between two
statements; both end in the deferred rollback.
-/

namespace SoaHomework.FlightService

open StatementProgram

abbrev Uuid := Nat

inductive FlightStatus where
  | scheduled
  | departed
  | cancelled
  | completed
deriving DecidableEq, Repr

inductive ReservationStatus where
  | active
  | released
  | expired
deriving DecidableEq, Repr

/-- A row of `flights` without its primary key. Times are in seconds and
    dates in days since the epoch. -/
structure Flight where
  airline : String
  flightNumber : String
  origin : String
  destination : String
  departureTime : Int
  arrivalTime : Int
  totalSeats : Int
  availableSeats : Int
  priceCents : Int
  status : FlightStatus
  version : Int
  flightDate : Int
deriving DecidableEq, Repr

/-- A row of `seat_reservations` without its primary key. -/
structure Reservation where
  flightID : Uuid
  bookingID : Uuid
  seatCount : Int
  status : ReservationStatus
deriving DecidableEq, Repr

inductive Key where
  | flight (id : Uuid)
  | reservation (id : Uuid)
deriving DecidableEq, Repr

@[reducible] def Row : Key → Type
  | .flight _ => Flight
  | .reservation _ => Reservation

/-- The `CHECK` constraints of `flights`. -/
def Flight.checks (f : Flight) : Bool :=
  decide (0 < f.totalSeats) && decide (0 ≤ f.availableSeats) && decide (0 < f.priceCents) &&
    decide (f.availableSeats ≤ f.totalSeats)

theorem Flight.checks_iff (f : Flight) : f.checks = true ↔
    0 < f.totalSeats ∧ 0 ≤ f.availableSeats ∧ 0 < f.priceCents ∧
      f.availableSeats ≤ f.totalSeats := by
  simp [Flight.checks, and_assoc]

/-- The `CHECK` constraints of `seat_reservations`. -/
def Reservation.checks (r : Reservation) : Bool := decide (0 < r.seatCount)

/-- `UNIQUE (booking_id)`. -/
def bookingIndex : (k : Key) → Row k → Option Uuid
  | .flight _, _ => none
  | .reservation _, r => some r.bookingID

abbrev Rows := AList Row

abbrev Db := RowStore Key Uuid Row

/-- The row with the given `booking_id`. -/
def findReservation (rows : Rows) (bookingID : Uuid) : Option (Uuid × Reservation) :=
  rows.entries.findSome? fun
    | ⟨.flight _, _⟩ => none
    | ⟨.reservation id, r⟩ => if r.bookingID = bookingID then some (id, r) else none

theorem findReservation_some {rows : Rows} {b id : Uuid} {r : Reservation}
    (h : findReservation rows b = some (id, r)) :
    rows.lookup (.reservation id) = some r ∧ r.bookingID = b := by
  obtain ⟨⟨key, row⟩, hmem, hfound⟩ := List.exists_of_findSome?_eq_some h
  cases key with
  | flight f => cases hfound
  | reservation id' =>
      simp only [Option.ite_none_right_eq_some, Option.some.injEq, Prod.mk.injEq] at hfound
      obtain ⟨hbooking, rfl, rfl⟩ := hfound
      exact ⟨AList.mem_lookup_iff.mpr hmem, hbooking⟩

theorem findReservation_of_lookup {rows : Rows} {id : Uuid} {r : Reservation}
    (hr : rows.lookup (.reservation id) = some r) :
    ∃ id' r', findReservation rows r.bookingID = some (id', r') := by
  cases hfound : findReservation rows r.bookingID with
  | some found => exact ⟨found.1, found.2, rfl⟩
  | none =>
      have hnone := List.findSome?_eq_none_iff.mp hfound ⟨.reservation id, r⟩
        (AList.mem_lookup_iff.mp hr)
      simp at hnone

/-! ## Statements -/

inductive DbError where
  | checkViolation
  | uniqueViolation
  | foreignKeyViolation
  | noRows
  | failure
deriving DecidableEq, Repr

inductive Statement where
  /-- `SELECT available_seats, status FROM flights WHERE id=$1 FOR UPDATE` -/
  | selectFlightForUpdate (flightID : Uuid)
  /-- `SELECT id FROM seat_reservations WHERE booking_id=$1` -/
  | selectReservation (bookingID : Uuid)
  /-- `UPDATE flights SET available_seats = available_seats + $1,
      version = version + 1 WHERE id=$2`, with `- $1` for a negative change -/
  | changeSeats (change : Int) (flightID : Uuid)
  /-- `INSERT INTO seat_reservations ... VALUES ($1, $2, $3, 'ACTIVE')` -/
  | insertReservation (flightID bookingID : Uuid) (seatCount : Int)
  /-- `SELECT ... FROM seat_reservations WHERE booking_id=$1 FOR UPDATE` -/
  | selectReservationForUpdate (bookingID : Uuid)
  /-- `UPDATE seat_reservations SET status='RELEASED' WHERE id=$1 RETURNING ...` -/
  | markReleased (id : Uuid)
  | commit
  /-- `SELECT ... FROM flights WHERE id=$1` -/
  | selectFlight (flightID : Uuid)

@[reducible] def Result : Statement → Type
  | .selectFlightForUpdate _ => Option (Int × FlightStatus)
  | .selectReservation _ => Option Uuid
  | .changeSeats _ _ => Unit
  | .insertReservation _ _ _ => Reservation
  | .selectReservationForUpdate _ => Option (Uuid × Reservation)
  | .markReleased _ => Reservation
  | .commit => Unit
  | .selectFlight _ => Option Flight

@[reducible] def Answer (statement : Statement) : Type := Except DbError (Result statement)

/-- A committed change of `available_seats`, with the booking it was for. -/
structure SeatChange where
  flightID : Uuid
  bookingID : Uuid
  change : Int
deriving DecidableEq, Repr

/-- The flight database. `journal` is a history of the committed changes of
    `available_seats`; no statement reads it. -/
structure State where
  db : Db
  journal : List SeatChange

/-- The changes of `available_seats` that the commit of transaction `i` makes. -/
def seatChanges (db : Db) (i : Nat) : List SeatChange :=
  (db.pending i).entries.flatMap fun
    | ⟨.reservation _, _⟩ => []
    | ⟨.flight id, f⟩ =>
        (db.pending i).entries.flatMap fun
          | ⟨.flight _, _⟩ => []
          | ⟨.reservation _, r⟩ =>
              [⟨id, r.bookingID,
                f.availableSeats - db.rows.weightAt
                  (fun | .flight _, old => old.availableSeats | .reservation _, _ => 0)
                  (.flight id)⟩]

/-- What the environment decides about a statement: it fails, or it proceeds,
    and `gen_random_uuid()` gives the stated value if it is called. -/
inductive Choice where
  | proceed (generated : Uuid)
  | failure

def answerWritten {row α : Type} (rejected : DbError) (f : row → α) :
    RowStore.Written row → Except DbError α
  | .missing => .error .noRows
  | .rejected => .error rejected
  | .written row => .ok (f row)

def changeSeats (change : Int) (f : Flight) : Flight :=
  { f with availableSeats := f.availableSeats + change, version := f.version + 1 }

def markReleased (r : Reservation) : Reservation := { r with status := .released }

/-- Execute a statement of transaction `i` that does not fail. -/
def proceed (i : Nat) (generated : Uuid) (s : State) :
    (statement : Statement) → Option (Answer statement × State)
  | .selectFlightForUpdate flightID =>
      (s.db.selectForUpdate i (.flight flightID)).map fun (row, db) =>
        (.ok (row.map fun f => (f.availableSeats, f.status)), { s with db })
  | .selectReservation bookingID =>
      some (.ok ((findReservation (s.db.view i) bookingID).map Prod.fst), s)
  | .changeSeats change flightID =>
      (s.db.update i (.flight flightID) (changeSeats change) Flight.checks).map
        fun (written, db) =>
          -- `Exec` does not ask how many rows the `UPDATE` found
          (match written with
            | .missing => .ok ()
            | written => answerWritten .checkViolation (fun _ => ()) written, { s with db })
  | .insertReservation flightID bookingID seatCount =>
      let row : Reservation := ⟨flightID, bookingID, seatCount, .active⟩
      if row.checks = false then some (.error .checkViolation, s)
      else if (s.db.read i (.flight flightID)).isNone then
        some (.error .foreignKeyViolation, s)
      else
        (s.db.insert bookingIndex i (.reservation generated) bookingID row).map
          fun (written, db) => (answerWritten .uniqueViolation id written, { s with db })
  | .selectReservationForUpdate bookingID =>
      match findReservation (s.db.view i) bookingID with
      | none => some (.ok none, s)
      | some (id, _) =>
          (s.db.selectForUpdate i (.reservation id)).map fun (row, db) =>
            (.ok (row.map fun r => (id, r)), { s with db })
  | .markReleased id =>
      (s.db.update i (.reservation id) markReleased Reservation.checks).map
        fun (written, db) => (answerWritten .checkViolation (fun r => r) written, { s with db })
  | .commit =>
      some (.ok (), ⟨s.db.commit i, s.journal ++ seatChanges s.db i⟩)
  | .selectFlight flightID => some (.ok (s.db.read i (.flight flightID)), s)

def execute (i : Nat) (statement : Statement) (choice : Choice) (s : State) :
    Option (Answer statement × State) :=
  match choice with
  | .proceed generated => proceed i generated s statement
  | .failure => some (.error .failure, s)

/-! ## The transactions -/

inductive StoreError where
  | notFound
  | noSeats
  | alreadyExists
  | db (error : DbError)
deriving DecidableEq, Repr

def returnError {α : Type} : Except DbError α → Program Statement Answer StoreError α
  | .ok result => .ret result
  | .error error => .fail (.db error)

/-- A statement whose failure the transaction returns to its caller. -/
def query (statement : Statement) :
    Program Statement Answer StoreError (Result statement) := do
  returnError (← Program.perform statement)

namespace Store

def reserveSeats (flightID bookingID : Uuid) (seatCount : Int) :
    Program Statement Answer StoreError Reservation := do
  match ← query (.selectFlightForUpdate flightID) with
  | none => .fail .notFound
  | some (available, status) =>
      Program.raiseIf (status != .scheduled) .notFound
      Program.raiseIf (decide (available < seatCount)) .noSeats
      let existing ← query (.selectReservation bookingID)
      Program.raiseIf existing.isSome .alreadyExists
      query (.changeSeats (-seatCount) flightID)
      let r ← query (.insertReservation flightID bookingID seatCount)
      query .commit
      return r

def releaseReservation (bookingID : Uuid) :
    Program Statement Answer StoreError Reservation := do
  match ← query (.selectReservationForUpdate bookingID) with
  | none => .fail .notFound
  | some (id, r) =>
      Program.raiseIf (r.status != .active) .notFound
      query (.changeSeats r.seatCount r.flightID)
      let r ← query (.markReleased id)
      query .commit
      return r

def getFlight (id : Uuid) : Program Statement Answer StoreError Flight := do
  match ← query (.selectFlight id) with
  | none => .fail .notFound
  | some f => return f

end Store

/-! ## The service -/

/-- A request to the store. The server lets only positive seat counts through
    (`GetSeatCount() <= 0` is answered with `InvalidArgument`). -/
inductive Request where
  | reserveSeats (flightID bookingID : Uuid) (seatCount : Int) (positive : 0 < seatCount)
  | releaseReservation (bookingID : Uuid)

def handle : Request → Program Statement Answer StoreError Reservation
  | .reserveSeats flightID bookingID seatCount _ =>
      Store.reserveSeats flightID bookingID seatCount
  | .releaseReservation bookingID => Store.releaseReservation bookingID

/-- An operator sets the status of a flight, in a transaction of its own. -/
structure StatusChange where
  flightID : Uuid
  status : FlightStatus

def changeStatus (change : StatusChange) (s : State) : Option State :=
  (s.db.overwrite (.flight change.flightID) fun f : Flight =>
    { f with status := change.status }).map fun db => { s with db }

def service :
    Service Statement Answer StoreError Reservation Request Choice StatusChange State where
  handler := handle
  exec := execute
  -- `defer tx.Rollback(ctx)`, which does nothing after a commit
  close i s := { s with db := s.db.rollback i }
  outside := changeStatus

abbrev FlightPool := Pool Statement Answer StoreError Reservation Request State

/-- The database with the committed rows `rows` and no transaction. -/
def State.ofRows (rows : Rows) : State := ⟨RowStore.ofRows rows, []⟩

end SoaHomework.FlightService
