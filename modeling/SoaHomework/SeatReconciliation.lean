import SoaHomework.BookingLifecycle

/-!
# The two databases reconciled

The bookings and the seats are in different databases. In every reachable state the
seats that a flight has lost are those of the `CONFIRMED` bookings that hold their
reservation, and those of reservations without a booking: no other booking counts
and none counts twice. So a flight is never overbooked.
-/

namespace SoaHomework.BookingService

open StatementProgram Grpc GrpcClient
open FlightService (Uuid Rows Key Row Flight Reservation Accounts activeSeats activeWeight
  findReservation)

variable {rows₀ : Rows} {s : State} {f : Uuid}

/-- The reservation of the booking is `ACTIVE`. -/
def holdsSeats (b : Uuid) (s : State) : Bool :=
  (findReservation s.ledger.rows b).any fun found => decide (found.2.status = .active)

/-- The sum of `seat_count` over the `CONFIRMED` bookings of flight `f` that hold
    their seats. -/
def confirmedSeats (f : Uuid) (s : State) : Int :=
  s.bookings.total fun b booking =>
    if booking.flightID = f ∧ booking.status = .confirmed ∧ holdsSeats b s then
      booking.seatCount
    else 0

def unbookedWeight (f : Uuid) (s : State) : (k : Key) → Row k → Int
  | .flight _, _ => 0
  | .reservation _, r =>
      if r.flightID = f ∧ r.status = .active ∧ s.bookings.lookup r.bookingID = none then
        r.seatCount
      else 0

/-- The sum of `seat_count` over the `ACTIVE` reservations of flight `f` for which
    there is no booking. -/
def unbookedSeats (f : Uuid) (s : State) : Int := s.ledger.rows.total (unbookedWeight f s)

/-- The `ACTIVE` reservations for which there is a booking. -/
def bookedWeight (f : Uuid) (s : State) : (k : Key) → Row k → Int
  | .flight _, _ => 0
  | .reservation _, r =>
      if r.flightID = f ∧ r.status = .active ∧ s.bookings.lookup r.bookingID ≠ none then
        r.seatCount
      else 0

theorem activeWeight_split (f : Uuid) (s : State) (k : Key) (row : Row k) :
    activeWeight f k row = bookedWeight f s k row + unbookedWeight f s k row := by
  cases k with
  | flight id => rfl
  | reservation id =>
      simp only [activeWeight, bookedWeight, unbookedWeight]
      by_cases hactive : row.flightID = f ∧ row.status = .active
      · cases s.bookings.lookup row.bookingID with
        | none => simp [hactive]
        | some booking => simp [hactive]
      · grind

theorem holdsSeats_iff (h : Saga rows₀ s) {b : Uuid} :
    holdsSeats b s = true ↔ ∃ id, ∃ r : Reservation,
      s.ledger.rows.lookup (.reservation id) = some r ∧ r.bookingID = b ∧ r.status = .active := by
  rw [holdsSeats, Option.any_eq_true]
  constructor
  · rintro ⟨⟨id, r⟩, hfound, hactive⟩
    obtain ⟨hr, hb⟩ := FlightService.findReservation_some hfound
    exact ⟨id, r, hr, hb, of_decide_eq_true hactive⟩
  · rintro ⟨id, r, hr, rfl, hactive⟩
    obtain ⟨id', r', hfound⟩ := FlightService.findReservation_of_lookup hr
    obtain ⟨hr', hb⟩ := FlightService.findReservation_some hfound
    obtain rfl := h.accounts.unique id id' r r' hr hr' hb.symm
    obtain rfl := Option.some.inj (hr.symm.trans hr')
    exact ⟨_, hfound, decide_eq_true hactive⟩

/-- The booking of a reservation that is `ACTIVE` is `CONFIRMED`, for the same seats. -/
theorem Saga.booking_of_active (h : Saga rows₀ s) (hledgered : Ledgered s) {id : Uuid}
    {r : Reservation} (hr : s.ledger.rows.lookup (.reservation id) = some r)
    (hactive : r.status = .active) {booking : Booking}
    (hbooking : s.bookings.lookup r.bookingID = some booking) :
    booking.flightID = r.flightID ∧ booking.seatCount = r.seatCount ∧
      booking.status = .confirmed ∧ holdsSeats r.bookingID s = true := by
  obtain ⟨id', r', hr', hb', hflight, hcount⟩ := h.booked r.bookingID booking hbooking
  obtain rfl := h.accounts.unique id id' r r' hr hr' hb'.symm
  obtain rfl := Option.some.inj (hr.symm.trans hr')
  refine ⟨hflight.symm, hcount.symm, ?_, (holdsSeats_iff h).mpr ⟨id, r, hr, rfl, hactive⟩⟩
  cases hstatus : booking.status with
  | confirmed => rfl
  | cancelled =>
      obtain ⟨id', r', hr', hb', hinactive⟩ := hledgered.returned _ booking hbooking hstatus
      obtain rfl := h.accounts.unique id id' r r' hr hr' hb'.symm
      obtain rfl := Option.some.inj (hr.symm.trans hr')
      exact absurd hactive hinactive

/-- Reservation `k` is the one of booking `b`. -/
def ReservationOf (s : State) (k : Key) (b : Uuid) : Prop :=
  ∃ id, ∃ r : Reservation, k = .reservation id ∧
    s.ledger.rows.lookup (.reservation id) = some r ∧ r.bookingID = b

/-- The bookings that hold their seats and the `ACTIVE` reservations with a booking
    match one to one. -/
theorem Saga.total_booked (h : Saga rows₀ s) (hledgered : Ledgered s) (f : Uuid) :
    s.ledger.rows.total (bookedWeight f s) = confirmedSeats f s := by
  refine AList.total_eq_of_matching (ReservationOf s) ?_ ?_ ?_ ?_
  · intro k row hrow hweight
    cases k with
    | flight id => exact absurd rfl hweight
    | reservation id =>
        simp only [bookedWeight, ne_eq, ite_eq_right_iff, Classical.not_imp] at hweight
        obtain ⟨hcond, _⟩ := hweight
        obtain ⟨booking, hbooking⟩ := Option.ne_none_iff_exists'.mp hcond.2.2
        obtain ⟨hflight, hcount, hconfirmed, hholds⟩ :=
          h.booking_of_active hledgered hrow hcond.2.1 hbooking
        refine ⟨row.bookingID, booking, hbooking, ?_, id, row, rfl, hrow, rfl⟩
        rw [bookedWeight, if_pos hcond, if_pos ⟨hflight.trans hcond.1, hconfirmed, hholds⟩, hcount]
  · intro b booking hbooking hweight
    simp only [ne_eq, ite_eq_right_iff, Classical.not_imp] at hweight
    obtain ⟨⟨hf, _, hholds⟩, hcount⟩ := hweight
    obtain ⟨id, r, hr, rfl, hactive⟩ := (holdsSeats_iff h).mp hholds
    obtain ⟨hflight, hcount', _⟩ := h.booking_of_active hledgered hr hactive hbooking
    refine ⟨.reservation id, r, hr, ?_, id, r, rfl, hr, rfl⟩
    rw [bookedWeight, if_pos ⟨hflight.symm.trans hf, hactive, by simp [hbooking]⟩, ← hcount']
    exact hcount
  · rintro _ _ b ⟨id, r, rfl, hr, hb⟩ ⟨id', r', rfl, hr', hb'⟩
    rw [h.accounts.unique id id' r r' hr hr' (hb.trans hb'.symm)]
  · rintro _ b b' ⟨id, r, rfl, hr, hb⟩ ⟨id', r', hid, hr', hb'⟩
    cases hid
    obtain rfl := Option.some.inj (hr.symm.trans hr')
    exact hb.symm.trans hb'

theorem Saga.reconciled (h : Saga rows₀ s) (hledgered : Ledgered s) (f : Uuid) :
    activeSeats f s.ledger.rows = confirmedSeats f s + unbookedSeats f s := by
  rw [← h.total_booked hledgered f, unbookedSeats, ← AList.total_add, activeSeats]
  exact AList.total_congr fun k row _ => activeWeight_split f s k row

theorem unbookedSeats_nonneg (h : Saga rows₀ s) (f : Uuid) : 0 ≤ unbookedSeats f s := by
  refine AList.total_nonneg fun k row hrow => ?_
  cases k with
  | flight id => exact Int.le_refl 0
  | reservation id =>
      simp only [unbookedWeight]
      split
      · exact Int.le_of_lt (h.accounts.positive id row hrow)
      · exact Int.le_refl 0

/-- The seats of a flight in every reachable state: those it started with are the ones
    still available, the ones of its `CONFIRMED` bookings that hold their reservation,
    and the ones reserved without a booking. So the bookings never exceed the flight. -/
theorem seats_reconciled (rows₀ : Rows) (hopening : Opening rows₀) (cfg : CBConfig)
    (clock : Int) (pool : BookingPool) (hpool : Reachable rows₀ cfg clock pool) (f : Uuid)
    (row₀ row : Flight) (hrow₀ : rows₀.lookup (.flight f) = some row₀)
    (hrow : pool.shared.ledger.rows.lookup (.flight f) = some row) :
    row.availableSeats + confirmedSeats f pool.shared + unbookedSeats f pool.shared =
        row₀.availableSeats ∧
      confirmedSeats f pool.shared ≤ row₀.availableSeats ∧
      confirmedSeats f pool.shared + row.availableSeats ≤ row.totalSeats := by
  obtain ⟨hsaga, hledgered⟩ := (keeping_of_reachable hopening hpool).inv
  have haccount := hsaga.accounts.flight f row₀ row hrow₀ hrow
  have hnone : activeSeats f rows₀ = 0 := by
    refine AList.total_eq_zero fun k row hrow => ?_
    cases k with
    | flight id => rfl
    | reservation id =>
        rw [hopening.unreserved id] at hrow
        cases hrow
  have hseats := haccount.seats
  have hreconciled := hsaga.reconciled hledgered f
  have hunbooked := unbookedSeats_nonneg hsaga f
  have hcapacity := hsaga.accounts.capacity hrow
  have hnonneg := haccount.nonneg
  exact ⟨by omega, by omega, by omega⟩

theorem seats_reconciled_sample : ∃ pool, poolAfter storedEvents = some pool ∧
    confirmedSeats 1 pool.shared = 2 ∧
    ∃ row : Flight, pool.shared.ledger.rows.lookup (.flight 1) = some row ∧
      row.availableSeats + confirmedSeats 1 pool.shared + unbookedSeats 1 pool.shared = 4 := by
  have hrun : (poolAfter storedEvents).isSome := by decide
  have hconfirmed : confirmedSeats 1 ((poolAfter storedEvents).get hrun).shared = 2 := by
    decide +revert
  have hrow : (((poolAfter storedEvents).get hrun).shared.ledger.rows.lookup
      (.flight 1)).isSome := by decide +revert
  obtain ⟨row, hrow⟩ := Option.isSome_iff_exists.mp hrow
  exact ⟨_, (Option.some_get hrun).symm, hconfirmed, row, hrow,
    (seats_reconciled _ sampleRows_opening ⟨5, 10⟩ 0 _
      (reachable_poolAfter (Option.some_get hrun).symm) 1 _ row rfl hrow).1⟩

end SoaHomework.BookingService
