import SoaHomework.BookingOutcomes
import SoaHomework.ProgramRuns

/-!
# What can be stored of a booking

A request that has passed the checks of `CreateBooking` and got its seats is to
be stored as a row of `bookings`. The row is built from the request and from the
flight, whose columns are bounded by the schema of the flight service.
-/

namespace SoaHomework.BookingService

open StatementProgram Grpc GrpcClient
open FlightService (Uuid IdText Flight Rpc Accounts Ledger Execution)

/-- A row that the schema of the flight service admits: its `CHECK` constraints
    and its `int` columns. -/
structure Admitted (flight : Flight) : Prop where
  checks : flight.checks = true
  totalSeats : flight.totalSeats < 2 ^ 31
  priceCents : flight.priceCents < 2 ^ 31

/-- The handler takes the seats for reserved. -/
def reserved {α : Type} : Except CallError α → Bool
  | .ok _ => true
  | .error err => isAlreadyExists err

/-- The flight service tells what the row of the flight is, and reserves no more
    seats than the flight has. -/
def Truthful (flight : Flight) : (op : Op) → Res op → Prop
  | .attempt (.getFlight _), answer =>
      ∀ told, answer = .ok told → told.priceCents = flight.priceCents
  | .attempt (.reserveSeats _ _ seatCount), answer =>
      reserved answer = true → seatCount ≤ flight.totalSeats
  | _, _ => True

/-- What the columns take of a request for the seats of `flight`. -/
def CreateBookingRequest.fits (req : CreateBookingRequest) (flight : Flight) : Bool :=
  req.userID.isUuid && decide (req.seatCount * flight.priceCents < 2 ^ 31) &&
    storableText req.passengerName && storableText req.passengerEmail

/-! ## Calls -/

section Calls

variable {truth : (op : Op) → Res op → Prop} {Q : Op → Prop}

theorem meets_attempts {α : Type} {fn : Program Op Res CallError α}
    {tried : Except CallError α → Prop} (hfn : fn.Meets truth Q tried) (left : Nat) :
    (attempts fn left).Meets truth Q fun result =>
      ∃ outcome, result = .ok outcome ∧ tried outcome := by
  have hattempt : (fn.attempt : Program Op Res CallError (Except CallError α)).Meets truth Q
      fun result => ∃ outcome, result = .ok outcome ∧ tried outcome := by
    apply Program.meets_attempt
    apply hfn.mono
    exact fun outcome htried => ⟨outcome, rfl, htried⟩
  induction left with
  | zero => exact hattempt
  | succ left ih =>
      apply Program.meets_bind hattempt
      · intro outcome htried
        cases outcome with
        | ok resp => exact htried
        | error err =>
            cases hretryable : isRetryable err with
            | true =>
                simp only [hretryable, if_true]
                exact ih
            | false =>
                simp only [hretryable, Bool.false_eq_true, if_false]
                exact htried
      · rintro error ⟨outcome, heq, _⟩
        cases heq

/-- A call ends as one of its attempts, or without any. -/
theorem meets_call {rpc : Rpc} {post : Except CallError rpc.Reply → Prop}
    (hbreaker : ∀ op, (∀ rpc, op ≠ .attempt rpc) → (∀ b, op ≠ .insertBooking b) → Q op)
    (hattempt : Q (.attempt rpc)) (hanswer : ∀ answer, truth (.attempt rpc) answer → post answer)
    (hopen : post (.error circuitOpen)) : (call rpc).Meets truth Q post := by
  have hfn : (attemptCall rpc).Meets truth Q post := by
    refine ⟨hattempt, fun answer htruth => ?_⟩
    cases answer with
    | ok resp => exact hanswer (.ok resp) htruth
    | error err => exact hanswer (.error err) htruth
  have hother : ∀ {op : Op} {next : Res op → Program Op Res CallError rpc.Reply},
      (∀ rpc, op ≠ .attempt rpc) → (∀ b, op ≠ .insertBooking b) →
      (∀ answer, (next answer).Meets truth Q post) →
      (Program.perform op >>= next).Meets truth Q post := by
    intro op next hnoattempt hnoinsert hnext
    exact ⟨hbreaker op hnoattempt hnoinsert, fun answer _ => hnext answer⟩
  apply hother (by simp) (by simp)
  intro allowed
  apply Program.meets_raiseIf_bind (fun _ => hopen)
  intro _
  apply Program.meets_bind (meets_attempts hfn 2)
  · rintro outcome ⟨outcome', heq, htried⟩
    cases heq
    cases outcome with
    | ok resp => exact hother (by simp) (by simp) fun _ => htried
    | error err => exact hother (by simp) (by simp) fun _ => htried
  · rintro error ⟨outcome, heq, _⟩
    cases heq

end Calls

/-! ## The row that is built -/

section Row

variable {req : CreateBookingRequest} {flight : Flight}

/-- The row of a request with at least one seat, of which the flight has enough. -/
theorem storable_iff (hflight : Admitted flight) {b : Booking} (huser : b.userID = req.userID)
    (hname : b.passengerName = req.passengerName) (hemail : b.passengerEmail = req.passengerEmail)
    (hseats : b.seatCount = req.seatCount)
    (hprice : b.totalPriceCents = req.seatCount * flight.priceCents)
    (hpositive : 0 < req.seatCount) (htotal : req.seatCount ≤ flight.totalSeats) :
    b.storable = true ↔ req.fits flight = true := by
  have hpaid : 0 < req.seatCount * flight.priceCents := by
    have hchecks := hflight.checks
    rw [Flight.checks_iff] at hchecks
    exact Int.mul_pos hpositive hchecks.2.2.1
  have hcount : req.seatCount < 2 ^ 31 := htotal.trans_lt hflight.totalSeats
  rw [Booking.storable, CreateBookingRequest.fits, huser, hname, hemail, hseats,
    hprice]
  rw [decide_eq_true hpositive, decide_eq_true hcount, decide_eq_true hpaid]
  simp only [Bool.and_true]

/-- Whatever is inserted is stored if and only if the request fits. -/
def Inserts (req : CreateBookingRequest) (flight : Flight) (op : Op) : Prop :=
  ∀ b, op = .insertBooking b → (b.storable = true ↔ req.fits flight = true)

theorem inserts_of_ne {op : Op} (h : ∀ b, op ≠ .insertBooking b) : Inserts req flight op :=
  fun b hop => absurd hop (h b)

theorem meets_getFlight (flightID : Uuid) :
    (callOrWrite (.getFlight flightID)).Meets (Truthful flight) (Inserts req flight)
      fun result => ∀ told, result = .ok told → told.priceCents = flight.priceCents := by
  have hcall : (call (.getFlight flightID)).Meets (Truthful flight) (Inserts req flight)
      fun result => ∀ told, result = .ok told → told.priceCents = flight.priceCents := by
    apply meets_call
    · exact fun op _ hinsert => inserts_of_ne hinsert
    · exact inserts_of_ne (by simp)
    · exact fun answer htruth => htruth
    · simp
  apply Program.meets_attempt_bind hcall
  intro outcome htold
  cases outcome with
  | ok resp =>
      intro told heq
      cases heq
      exact htold resp rfl
  | error err => simp [Program.Meets]

theorem meets_reserve (flightID bookingID : Uuid) (seatCount : Int) :
    (reserve flightID bookingID seatCount).Meets (Truthful flight) (Inserts req flight)
      fun result => result = .ok () → seatCount ≤ flight.totalSeats := by
  have hcall : (call (.reserveSeats flightID bookingID seatCount)).Meets (Truthful flight)
      (Inserts req flight) fun result => reserved result = true →
        seatCount ≤ flight.totalSeats := by
    apply meets_call
    · exact fun op _ hinsert => inserts_of_ne hinsert
    · exact inserts_of_ne (by simp)
    · exact fun answer htruth => htruth
    · intro h
      cases h
  apply Program.meets_attempt_bind hcall
  intro outcome htaken
  cases outcome with
  | ok resp => exact fun _ => htaken rfl
  | error err =>
      apply Program.meets_raiseIf
      · simp
      · intro hexists _
        apply htaken
        simpa [reserved] using hexists

theorem meets_release (bookingID : Uuid) :
    (call (.releaseReservation bookingID)).Meets (Truthful flight) (Inserts req flight)
      fun _ => True := by
  apply meets_call
  · exact fun op _ hinsert => inserts_of_ne hinsert
  · exact inserts_of_ne (by simp)
  · exact fun _ _ => trivial
  · trivial

theorem meets_createBooking (hflight : Admitted flight) :
    (createBooking (some req)).Meets (Truthful flight) (Inserts req flight) fun _ => True := by
  apply Program.meets_raiseIf_bind fun _ => trivial
  intro hfields
  have hpositive : 0 < req.seatCount := by
    simp at hfields
    omega
  cases req.flightID with
  | empty => trivial
  | malformed => trivial
  | uuid flightID =>
      simp only [readUuid, Program.ret_bind]
      apply Program.meets_bind (meets_getFlight flightID) _ fun _ _ => trivial
      intro told htold
      have hprice : told.priceCents = flight.priceCents := htold told rfl
      refine ⟨inserts_of_ne (by simp), fun bookingID _ => ?_⟩
      apply Program.meets_bind (meets_reserve flightID bookingID req.seatCount) _ fun _ _ => trivial
      intro _ htotal
      constructor
      · intro b hb
        cases hb
        exact storable_iff hflight rfl rfl rfl rfl (by rw [hprice]) hpositive (htotal rfl)
      · intro answer _
        cases answer with
        | ok created => trivial
        | error error =>
            apply Program.meets_attempt_bind (meets_release bookingID)
            exact fun _ _ => trivial

/-- The row of a request whose seats have been reserved is one that `bookings`
    takes if and only if the user's id is a UUID, the price is an `int` and no
    text has a NUL. -/
theorem reserved_booking_storable (hflight : Admitted flight) (b : Booking)
    (h : (createBooking (some req)).Issues (Truthful flight) (.insertBooking b)) :
    b.storable = true ↔ req.fits flight = true :=
  (meets_createBooking hflight).of_issues h b rfl

end Row

/-! ## A price that is not an `int` -/

/-- A flight with three seats at 20 000 000.00. -/
def dearFlight : Flight where
  airline := "SU"
  flightNumber := "SU100"
  origin := "SVO"
  destination := "LED"
  departureTime := 1767258000
  arrivalTime := 1767262000
  totalSeats := 3
  availableSeats := 3
  priceCents := 2000000000
  status := .scheduled
  version := 0
  flightDate := 20454

def seatsRequest (seatCount : Int) : CreateBookingRequest where
  userID := .uuid 9
  flightID := .uuid 1
  passengerName := "A"
  passengerEmail := "a@b"
  seatCount := seatCount

/-- The row for `seatCount` seats on `dearFlight`. -/
def seatsBooking (seatCount : Int) : Booking where
  id := 5
  userID := .uuid 9
  flightID := 1
  passengerName := "A"
  passengerEmail := "a@b"
  seatCount := seatCount
  totalPriceCents := seatCount * 2000000000
  status := .confirmed

theorem admitted_dearFlight : Admitted dearFlight := by
  constructor <;> decide

/-- The run in which every call is answered at its first attempt. -/
theorem issues_seatsBooking {seatCount : Int} (hpositive : 0 < seatCount)
    (htotal : seatCount ≤ 3) :
    (createBooking (some (seatsRequest seatCount))).Issues (Truthful dearFlight)
      (.insertBooking (seatsBooking seatCount)) := by
  have hfields : ¬seatCount ≤ 0 := by omega
  simp only [createBooking, seatsRequest, hfields, decide_false]
  refine .later true trivial ?_
  refine .later (Except.ok dearFlight) ?_ ?_
  · rintro told heq
    cases heq
    rfl
  refine .later () trivial ?_
  refine .later (5 : Uuid) trivial ?_
  refine .later true trivial ?_
  refine .later (Except.ok ⟨1, 5, seatCount, .active⟩) (fun _ => htotal) ?_
  refine .later () trivial ?_
  exact .now _ _

/-- One seat has a price that the column holds. -/
theorem reserved_booking_storable_one_seat :
    ((seatsBooking 1).storable = true ↔ (seatsRequest 1).fits dearFlight = true) ∧
      (seatsBooking 1).storable = true :=
  ⟨reserved_booking_storable admitted_dearFlight (seatsBooking 1)
    (issues_seatsBooking (by decide) (by decide)), by decide⟩

/-- The seats are taken, and then the store can only refuse the row. -/
theorem reserved_booking_refused : Admitted dearFlight ∧
    (createBooking (some (seatsRequest 2))).Issues (Truthful dearFlight)
      (.insertBooking (seatsBooking 2)) ∧
    (seatsBooking 2).storable = false ∧
    ∀ i s, execute i (.insertBooking (seatsBooking 2)) .proceed s =
      some (.error .failure, s) := by
  have hstorable : (seatsBooking 2).storable = false := by decide
  refine ⟨admitted_dearFlight, issues_seatsBooking (by decide) (by decide), hstorable, ?_⟩
  intro i s
  simp [execute, hstorable]

end SoaHomework.BookingService
