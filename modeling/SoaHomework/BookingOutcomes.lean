import SoaHomework.BookingRequests

/-!
# What the booking saga guarantees

The outcomes of the saga for its callers: a stored booking has its seats, a
refused one leaves none behind exactly when no attempt to reserve took effect or
a compensation did, and a cancellation completes exactly while the reservation
is still there to be released.
-/

namespace SoaHomework.BookingService

open StatementProgram Grpc GrpcClient
open FlightService (Uuid IdText Rows Rpc Ledger Execution StatusChange Reservation Accounts
  SeatChange deductionsOf returnsOf changesOf Flight)

variable {rows₀ : Rows} {cfg : CBConfig} {clock : Int} {pool : BookingPool} {s : State}

/-- Every reservation is new: its seats have been deducted once. -/
theorem Saga.deducted (h : Saga rows₀ s) (hopening : Opening rows₀) {id : Uuid} {r : Reservation}
    (hr : s.ledger.rows.lookup (.reservation id) = some r) :
    deductionsOf r.bookingID s.ledger.journal = [⟨r.flightID, r.bookingID, -r.seatCount⟩] :=
  h.accounts.deducted id r hr (hopening.unreserved id)

theorem Saga.returned (h : Saga rows₀ s) (hopening : Opening rows₀) {id : Uuid} {r : Reservation}
    (hr : s.ledger.rows.lookup (.reservation id) = some r) (hstatus : r.status ≠ .active) :
    returnsOf r.bookingID s.ledger.journal = [⟨r.flightID, r.bookingID, r.seatCount⟩] :=
  h.accounts.settled id r hr (hopening.unreserved id) hstatus

/-! ## Sample requests -/

/-- Two of the four seats of the sample flight. -/
def sampleBody : CreateBookingRequest := ⟨.uuid 5, .uuid 1, "Иван Петров", "ivan@example.com", 2⟩

def calm (generated : Uuid) : Execution := ⟨generated, fun _ => false, none⟩

def timedOut : TransportError := ⟨.status ⟨.deadlineExceeded, "context deadline exceeded"⟩, rfl⟩

/-- Request 0 creates booking 7: it reads the flight and attempts to reserve the
    seats with the given fates; `rest` are its steps from there. -/
def createEvents (fates : List Fate) (rest : List Choice) :
    List (Event Request Choice Outside) :=
  .start (.createBooking (some sampleBody)) ::
    ([Choice.proceed, .fate (.answered (calm 0)), .proceed, .generated 7, .proceed] ++
      fates.map Choice.fate ++ rest).map (.step 0)

/-- The two services after the events, with the sample flight. -/
def poolAfter (events : List (Event Request Choice Outside)) : Option BookingPool :=
  service.run (Pool.initial (State.start FlightService.sampleRows ⟨5, 10⟩ 0)) events

theorem sampleRows_opening : Opening FlightService.sampleRows where
  schema := FlightService.sampleRows_schema
  unreserved id := by
    rw [FlightService.sampleRows, AList.lookup_insert_ne (by simp), AList.lookup_empty]

theorem reachable_poolAfter {events : List (Event Request Choice Outside)}
    (h : poolAfter events = some pool) : Reachable FlightService.sampleRows ⟨5, 10⟩ 0 pool :=
  Service.Steps.of_run events h

/-! ## The success side -/

/-- The seats of a stored booking are deducted exactly once, and unless a
    cancellation has attempted to release them it has one reservation, which is
    `ACTIVE` and is for its flight and its seats. -/
theorem booking_reserved_once (rows₀ : Rows) (hopening : Opening rows₀) (cfg : CBConfig)
    (clock : Int) (pool : BookingPool) (hpool : Reachable rows₀ cfg clock pool) (b : Uuid)
    (booking : Booking) (hbooking : pool.shared.bookings.lookup b = some booking) :
    deductionsOf b pool.shared.ledger.journal =
        [⟨booking.flightID, b, -booking.seatCount⟩] ∧
      ((∀ i id status, pool.threads[i]? = some ⟨.cancelBooking id, status⟩ →
          (i, .releaseReservation b) ∉ pool.shared.issued) →
        (∃ id, pool.shared.ledger.rows.lookup (.reservation id) =
            some (⟨booking.flightID, b, booking.seatCount, .active⟩ : Reservation) ∧
          ∀ id' (r' : Reservation),
            pool.shared.ledger.rows.lookup (.reservation id') = some r' →
            r'.bookingID = b → id' = id) ∧
        returnsOf b pool.shared.ledger.journal = []) := by
  have hsaga := (holds_of_reachable hopening hpool).inv
  obtain ⟨id, r, hr, hb, hflight, hcount⟩ := hsaga.booked b booking hbooking
  have hdeducted := hsaga.deducted hopening hr
  rw [hb, hflight, hcount] at hdeducted
  refine ⟨hdeducted, fun huncancelled => ?_⟩
  have hactive : r.status = .active := by
    refine Classical.byContradiction fun hinactive => ?_
    obtain ⟨i, hi⟩ := hsaga.released id r hr hinactive
    rw [hb] at hi
    have hissued := hsaga.effective _ hi
    obtain ⟨⟨request, status⟩, hthread, hentitled⟩ :=
      attributed_of_reachable hopening hpool i b hissued
    cases request with
    | cancelBooking id => exact huncancelled i id status hthread hissued
    | createBooking body =>
        have hnone := (hsaga.releases i b hissued).2.mp hentitled
        rw [hbooking] at hnone
        cases hnone
  have hunreturned := hsaga.accounts.unreturned id r hr hactive
  rw [hb] at hunreturned
  refine ⟨⟨id, ?_, fun id' r' hr' hb' => ?_⟩, hunreturned⟩
  · obtain ⟨flightID, bookingID, seatCount, status⟩ := r
    simp only at hb hflight hcount hactive
    rw [hr, hb, hflight, hcount, hactive]
  · exact hsaga.accounts.unique id' id r' r hr' hr (hb'.trans hb.symm)

/-- The first attempt is late, the answer of the second is lost, the third finds
    a reservation; the booking is stored and then the first one arrives. -/
def retriedEvents : List (Event Request Choice Outside) :=
  createEvents [.late timedOut, .unanswered (calm 20) timedOut, .answered (calm 21)]
    [.proceed, .proceed, .proceed] ++ [.outside (.deliver 0 (calm 22))]

def sampleBooking : Booking :=
  ⟨7, .uuid 5, 1, "Иван Петров", "ivan@example.com", 2, 900000, .confirmed⟩

theorem booking_reserved_once_sample : ∃ pool, poolAfter retriedEvents = some pool ∧
    pool.shared.bookings.lookup 7 = some sampleBooking ∧
    deductionsOf 7 pool.shared.ledger.journal = [⟨1, 7, -2⟩] ∧
    (∃ id, pool.shared.ledger.rows.lookup (.reservation id) =
        some (⟨1, 7, 2, .active⟩ : Reservation) ∧
      ∀ id' (r' : Reservation), pool.shared.ledger.rows.lookup (.reservation id') = some r' →
        r'.bookingID = 7 → id' = id) ∧
    returnsOf 7 pool.shared.ledger.journal = [] := by
  have hrun : (poolAfter retriedEvents).isSome := by decide
  have hbooking : ((poolAfter retriedEvents).get hrun).shared.bookings.lookup 7 =
      some sampleBooking := by decide +revert
  have hunreleased : ∀ call ∈ ((poolAfter retriedEvents).get hrun).shared.issued,
      call.2 ≠ .releaseReservation 7 := by decide +revert
  obtain ⟨hdeducted, hreserved⟩ := booking_reserved_once _ sampleRows_opening _ _ _
    (reachable_poolAfter (Option.some_get hrun).symm) 7 sampleBooking hbooking
  exact ⟨_, (Option.some_get hrun).symm, hbooking, hdeducted,
    hreserved fun _ _ _ _ hissued => hunreleased _ hissued rfl⟩

/-! ## The failure side -/

/-- The history without the changes for booking `b`. -/
def without (b : Uuid) (journal : List SeatChange) : List SeatChange :=
  journal.filter fun entry => entry.bookingID ≠ b

/-- Booking `b` holds no seats, and every flight has the seats that it would
    have without the changes for `b`. -/
structure Undone (rows₀ : Rows) (b : Uuid) (s : State) : Prop where
  inactive : ∀ id (r : Reservation), s.ledger.rows.lookup (.reservation id) = some r →
    r.bookingID = b → r.status ≠ .active
  seats : ∀ f (row₀ row : Flight), rows₀.lookup (.flight f) = some row₀ →
    s.ledger.rows.lookup (.flight f) = some row →
    row.availableSeats =
      row₀.availableSeats + (changesOf f (without b s.ledger.journal)).sum

theorem without_append (b : Uuid) (journal journal' : List SeatChange) :
    without b (journal ++ journal') = without b journal ++ without b journal' := by
  simp [without]

/-- The changes for a booking are its deductions and its returns. -/
theorem sum_changesOf (f b : Uuid) {journal : List SeatChange}
    (h : ∀ entry ∈ journal, entry.change ≠ 0) :
    (changesOf f journal).sum = (changesOf f (without b journal)).sum +
      ((changesOf f (deductionsOf b journal)).sum + (changesOf f (returnsOf b journal)).sum) := by
  induction journal with
  | nil => rfl
  | cons entry journal ih =>
      have hentry := h entry (List.mem_cons_self ..)
      have hrest := ih fun entry' hentry' => h entry' (List.mem_cons_of_mem _ hentry')
      have hone : (changesOf f [entry]).sum = (changesOf f (without b [entry])).sum +
          ((changesOf f (deductionsOf b [entry])).sum +
            (changesOf f (returnsOf b [entry])).sum) := by
        by_cases hb : entry.bookingID = b
        · rcases Int.lt_or_gt_of_ne hentry with hneg | hpos
          · simp [without, deductionsOf, returnsOf, hb, hneg, Int.le_of_lt hneg, changesOf]
          · simp [without, deductionsOf, returnsOf, hb, hpos, Int.le_of_lt hpos, changesOf]
        · simp [without, deductionsOf, returnsOf, hb, changesOf]
      rw [← List.singleton_append, FlightService.changesOf_append, without_append,
        FlightService.deductionsOf_append, FlightService.returnsOf_append,
        FlightService.changesOf_append, FlightService.changesOf_append,
        FlightService.changesOf_append, List.sum_append, List.sum_append, List.sum_append,
        List.sum_append, hone, hrest]
      omega

/-- A booking that holds no seats has given back what it took. -/
theorem Saga.undone (h : Saga rows₀ s) (hopening : Opening rows₀) {b : Uuid}
    (hinactive : ∀ id (r : Reservation), s.ledger.rows.lookup (.reservation id) = some r →
      r.bookingID = b → r.status ≠ .active) : Undone rows₀ b s := by
  refine ⟨hinactive, fun f row₀ row h₀ hrow => ?_⟩
  have hbalanced : (changesOf f (deductionsOf b s.ledger.journal)).sum +
      (changesOf f (returnsOf b s.ledger.journal)).sum = 0 := by
    by_cases hreserved : Reserved s b
    · obtain ⟨id, r, hr, rfl⟩ := hreserved
      rw [h.deducted hopening hr, h.returned hopening hr (hinactive id r hr rfl)]
      by_cases hf : r.flightID = f
      · simp [changesOf, hf]
      · simp [changesOf, hf]
    · have hnone : ∀ entry ∈ s.ledger.journal, entry.bookingID ≠ b :=
        h.accounts.no_entry fun id r hr hb => hreserved ⟨id, r, hr, hb⟩
      rw [FlightService.deductionsOf_eq_nil hnone, FlightService.returnsOf_eq_nil hnone]
      rfl
  rw [(h.accounts.flight f row₀ row h₀ hrow).available,
    sum_changesOf f b fun entry hentry => (h.accounts.entry entry hentry).1, hbalanced, add_zero]

/-- A request to create a booking that is answered with an error leaves nothing
    of the id that it made, now or once its last attempt is through, exactly
    when none of its attempts to reserve has taken effect or a compensation
    has. -/
theorem failed_booking_undone (rows₀ : Rows) (hopening : Opening rows₀) (cfg : CBConfig)
    (clock : Int) (pool : BookingPool) (hpool : Reachable rows₀ cfg clock pool) (i : Nat)
    (body : Option CreateBookingRequest) (error : HttpError)
    (hanswered : pool.Answered i (.createBooking body) (.error error)) (b : Uuid)
    (howner : pool.shared.owner b = some i) :
    Undone rows₀ b pool.shared ↔
      (∀ f n, (i, .reserveSeats f b n) ∉ pool.shared.effective) ∨
        (i, .releaseReservation b) ∈ pool.shared.effective := by
  have hholds := holds_of_reachable hopening hpool
  have hsaga := hholds.inv
  have hunbooked := hholds.answered i _ _ hanswered b howner
  constructor
  · rintro ⟨hinactive, _⟩
    refine Classical.or_iff_not_imp_left.mpr fun hreserves => ?_
    simp only [not_forall, Classical.not_not] at hreserves
    obtain ⟨f, n, hreserve⟩ := hreserves
    obtain ⟨id, r, hr, hb⟩ := hsaga.reserved i f b n hreserve
    obtain ⟨j, hj⟩ := hsaga.released id r hr (hinactive id r hr hb)
    rw [hb] at hj
    have hj' := (hsaga.releases j b (hsaga.effective _ hj)).2.mpr hunbooked
    obtain rfl := Option.some.inj (howner.symm.trans hj')
    exact hj
  · rintro (hunreserved | hreleased)
    · refine hsaga.undone hopening fun id r hr hb _ => ?_
      obtain ⟨j, hj⟩ := hsaga.requested id r hr
      rw [hb] at hj
      have hj' := hsaga.owner j _ b _ (hsaga.effective _ hj)
      obtain rfl := Option.some.inj (howner.symm.trans hj')
      exact hunreserved _ _ hj
    · exact hsaga.undone hopening (hsaga.settled i b hreleased)

/-- The booking cannot be stored, and the compensation is answered. -/
def compensatedEvents : List (Event Request Choice Outside) :=
  createEvents [.answered (calm 20)]
    [.proceed, .failure, .proceed, .fate (.answered (calm 0)), .proceed, .proceed]

theorem failed_booking_undone_sample : ∃ pool, poolAfter compensatedEvents = some pool ∧
    pool.Answered 0 (.createBooking (some sampleBody)) (.error ⟨500, "ошибка создания"⟩) ∧
    Undone FlightService.sampleRows 7 pool.shared := by
  have hrun : (poolAfter compensatedEvents).isSome := by decide
  have hreleased : (0, Rpc.releaseReservation 7) ∈
      ((poolAfter compensatedEvents).get hrun).shared.effective := by decide +revert
  have hanswered : ((poolAfter compensatedEvents).get hrun).Answered 0
      (.createBooking (some sampleBody)) (.error ⟨500, "ошибка создания"⟩) := rfl
  exact ⟨_, (Option.some_get hrun).symm, hanswered,
    (failed_booking_undone _ sampleRows_opening _ _ _
      (reachable_poolAfter (Option.some_get hrun).symm) 0 _ _ hanswered 7 rfl).mpr
      (Or.inr hreleased)⟩

/-- All three attempts are executed and none of the answers arrives. -/
def leakedEvents : List (Event Request Choice Outside) :=
  createEvents (List.replicate 3 (.unanswered (calm 20) timedOut)) [.proceed, .proceed]

/-- The seats stay taken: nothing compensates a reservation whose answers were
    lost. -/
theorem failed_booking_leaks :
    ¬ ∀ pool : BookingPool, Reachable FlightService.sampleRows ⟨5, 10⟩ 0 pool →
      ∀ i body error, pool.Answered i (.createBooking body) (.error error) →
      (∀ rpc, (i, rpc) ∉ pool.shared.late) → ∀ b, pool.shared.owner b = some i →
      Undone FlightService.sampleRows b pool.shared := by
  intro hclaim
  have hrun : (poolAfter leakedEvents).isSome := by decide
  have hlate : ((poolAfter leakedEvents).get hrun).shared.late = [] := by decide +revert
  have hactive : ((poolAfter leakedEvents).get hrun).shared.ledger.rows.lookup
      (.reservation 20) = some (⟨1, 7, 2, .active⟩ : Reservation) := by decide +revert
  have hundone := hclaim _ (reachable_poolAfter (Option.some_get hrun).symm) 0
    (some sampleBody) ⟨503, "сервис временно недоступен"⟩ rfl
    (fun rpc hrpc => by rw [hlate] at hrpc; cases hrpc) 7 rfl
  exact hundone.inactive 20 _ hactive rfl rfl

/-! ## Cancelling once more -/

/-- Both services are healthy: every statement is executed, and an attempt is
    executed and answered. -/
def healthyChoice (how : Execution) : Op → Choice
  | .attempt _ => .fate (.answered how)
  | .newUuid => .generated how.generated
  | _ => .proceed

def healthy (i : Nat) (how : Execution) (op : Op) (s : State) : Option (Res op × State) :=
  execute i op (healthyChoice how op) s

variable {i : Nat} {how : Execution} {b : Uuid}

theorem alone_attemptCall {rpc : Rpc} {result : Except RpcError rpc.Reply} {ledger : Ledger}
    (hrun : rpc.run how s.ledger = some (result, ledger)) :
    (attemptCall rpc).alone (healthy i how) s =
      some (result.mapError CallError.status, (s.issue i rpc).record i rpc how ledger) := by
  have hexec : healthy i how (.attempt rpc) s =
      some (result.mapError CallError.status, (s.issue i rpc).record i rpc how ledger) := by
    have hrun' : rpc.run how (s.issue i rpc).ledger = some (result, ledger) := hrun
    simp only [healthy, healthyChoice, execute, State.meet, State.deliver, hrun',
      Option.map_some]
  rw [attemptCall, Program.alone_step _ hexec]
  cases result with
  | ok resp => rfl
  | error error => rfl

/-- How the call that a healthy cancellation makes ends: refused by the breaker,
    or with the answer of its only attempt. -/
theorem alone_callOrWrite (rpc : Rpc) {result : Except RpcError rpc.Reply} {ledger : Ledger}
    (hrun : rpc.run how s.ledger = some (result, ledger))
    (hfinal : ∀ error, result = .error error → error.code.isTransient = false) :
    ((s.breaker.allow s.clock).1 = false ∧ ∃ s',
      (callOrWrite rpc).alone (healthy i how) s =
        some (.error (writeGrpcError circuitOpen), s')) ∨
    ((s.breaker.allow s.clock).1 = true ∧ ∃ s',
      (callOrWrite rpc).alone (healthy i how) s =
        some (result.mapError fun error => writeGrpcError (.status error), s') ∧
      s'.ledger = ledger ∧ s'.bookings = s.bookings) := by
  have hallow : ∀ admitted, (s.breaker.allow s.clock).1 = admitted →
      (Program.perform Op.allow : Program Op Res CallError Bool).alone (healthy i how) s =
        some (.ok admitted, { s with breaker := (s.breaker.allow s.clock).2 }) := by
    rintro _ rfl
    rfl
  rw [callOrWrite, Program.alone_bind, Program.alone_attempt]
  cases hadmitted : (s.breaker.allow s.clock).1 with
  | false =>
      refine Or.inl ⟨rfl, { s with breaker := (s.breaker.allow s.clock).2 }, ?_⟩
      rw [call, alone_refused (hallow false hadmitted)]
      rfl
  | true =>
      refine Or.inr ⟨rfl, ?_⟩
      let admitted : State := { s with breaker := (s.breaker.allow s.clock).2 }
      have hattempt : (attemptCall rpc).alone (healthy i how) admitted =
          some (result.mapError CallError.status,
            (admitted.issue i rpc).record i rpc how ledger) := alone_attemptCall hrun
      cases result with
      | ok resp =>
          rw [call, alone_succeeded (hallow true hadmitted) hattempt]
          exact ⟨_, rfl, rfl, rfl⟩
      | error error =>
          rw [call, alone_failed (hallow true hadmitted) hattempt (hfinal error rfl)]
          exact ⟨_, rfl, rfl, rfl⟩

/-- The answer of a completed cancellation and the state it leaves. -/
structure Cancelled (b : Uuid) (booking : Booking) (result : Except HttpError HttpReply)
    (s : State) : Prop where
  answer : result = .ok ⟨200, toBookingResponse { booking with status := .cancelled }⟩
  stored : s.bookings.lookup b = some { booking with status := .cancelled }
  released : ∃ id, ∃ r : Reservation, s.ledger.rows.lookup (.reservation id) = some r ∧
    r.bookingID = b ∧ r.status = .released
  returned : returnsOf b s.ledger.journal = [⟨booking.flightID, b, booking.seatCount⟩]

/-- The rest of a cancellation, once the booking is read. -/
theorem alone_cancelBooking (i : Nat) (how : Execution) {booking : Booking}
    (hbooking : s.bookings.lookup b = some booking) (hconfirmed : booking.status = .confirmed) :
    (cancelBooking (.uuid b)).alone (healthy i how) s =
      (callOrWrite (.releaseReservation b) >>= fun _ => storeCancelled b).alone
        (healthy i how) s := by
  have hexec : healthy i how (.getBooking b) s = some (.ok booking, s) := by
    simp [healthy, healthyChoice, execute, hbooking]
  have hread : (readBooking b).alone (healthy i how) s = some (.ok booking, s) :=
    (Program.alone_step _ hexec).trans rfl
  simp only [cancelBooking, readUuid, Program.ret_bind]
  rw [Program.alone_bind, hread]
  simp only [hconfirmed, bne_self_eq_false, Program.raiseIf, Bool.false_eq_true, if_false,
    Program.ret_bind]

/-- A cancellation that ends with an error has not completed. -/
theorem not_cancelled {booking : Booking} {error : HttpError} {s' : State}
    (halone : (cancelBooking (.uuid b)).alone (healthy i how) s = some (.error error, s')) :
    ¬ ∃ result s', (cancelBooking (.uuid b)).alone (healthy i how) s = some (result, s') ∧
      Cancelled b booking result s' := by
  rintro ⟨result, s'', halone', hcancelled⟩
  obtain ⟨rfl, rfl⟩ := Prod.mk.inj (Option.some.inj (halone.symm.trans halone'))
  cases hcancelled.answer

/-- A cancellation of a confirmed booking that meets healthy services completes
    exactly when the reservation is still `ACTIVE` and the breaker admits the
    call. -/
theorem cancellation_completes (rows₀ : Rows) (hopening : Opening rows₀) (cfg : CBConfig)
    (clock : Int) (pool : BookingPool) (hpool : Reachable rows₀ cfg clock pool) (b : Uuid)
    (booking : Booking) (hbooking : pool.shared.bookings.lookup b = some booking)
    (hconfirmed : booking.status = .confirmed) (i : Nat) (how : Execution)
    (hcalm : ∀ statement, how.fails statement = false) :
    (∃ result s', (cancelBooking (.uuid b)).alone (healthy i how) pool.shared =
        some (result, s') ∧ Cancelled b booking result s') ↔
      (∃ id, ∃ r : Reservation, pool.shared.ledger.rows.lookup (.reservation id) = some r ∧
        r.bookingID = b ∧ r.status = .active) ∧
      (pool.shared.breaker.allow pool.shared.clock).1 = true := by
  have hsaga := (holds_of_reachable hopening hpool).inv
  have halone := alone_cancelBooking i how hbooking hconfirmed
  obtain ⟨result, ledger, hrun⟩ :=
    FlightService.run_releaseReservation b how pool.shared.ledger
  have hreleasing := FlightService.releasing_of_run hsaga.accounts hrun
  have hfinal : ∀ error, result = .error error → error.code.isTransient = false := by
    rintro error rfl
    cases hreleasing with
    | refused hcode => exact hcode
  rcases alone_callOrWrite (i := i) _ hrun hfinal with
    ⟨hrefused, s', hcall⟩ | ⟨hadmitted, s', hcall, hledger, hbookings⟩
  · rw [Program.alone_bind, hcall] at halone
    exact iff_of_false (not_cancelled halone) fun h => by simp [hrefused] at h
  rw [Program.alone_bind, hcall] at halone
  cases hreleasing with
  | refused _ hinactive =>
      refine iff_of_false (not_cancelled halone) ?_
      rintro ⟨⟨id, r, hr, hb, hactive⟩, _⟩
      exact hinactive (FlightService.effective_release hcalm b _) id r hr hb hactive
  | @released id row r hrow hr hb hactive =>
      refine iff_of_true ?_ ⟨⟨id, r, hr, hb, hactive⟩, hadmitted⟩
      have hlookup : s'.bookings.lookup b = some booking := by rw [hbookings, hbooking]
      have hupdate : healthy i how (.updateBookingStatus b .cancelled) s' =
          some (.ok { booking with status := .cancelled }, { s' with
            bookings := s'.bookings.insert b { booking with status := .cancelled } }) := by
        simp [healthy, healthyChoice, execute, hlookup]
      refine ⟨_, _, halone.trans ((Program.alone_step _ hupdate).trans rfl), rfl, ?_, ?_, ?_⟩
      · exact AList.lookup_insert _
      · refine ⟨id, FlightService.markReleased r, ?_, hb, rfl⟩
        simp only [hledger]
        rw [FlightService.lookup_reservation_commit, if_pos rfl]
      · obtain ⟨id', r', hr', hb', hflight, hcount⟩ := hsaga.booked b booking hbooking
        obtain rfl := hsaga.accounts.unique id' id r' r hr' hr (hb'.trans hb.symm)
        obtain rfl := Option.some.inj (hr.symm.trans hr')
        have hunreturned := hsaga.accounts.unreturned _ r hr hactive
        simp only [hledger]
        rw [← hb, FlightService.returnsOf_append, hunreturned, ← hflight, ← hcount]
        simp [returnsOf, hsaga.accounts.positive _ r hr]

/-- A booking that is stored at the first attempt. -/
def storedEvents : List (Event Request Choice Outside) :=
  createEvents [.answered (calm 20)] [.proceed, .proceed, .proceed]

theorem cancellation_completes_sample : ∃ pool, poolAfter storedEvents = some pool ∧
    ∃ result s', (cancelBooking (.uuid 7)).alone (healthy 1 (calm 0)) pool.shared =
      some (result, s') ∧ Cancelled 7 sampleBooking result s' := by
  have hrun : (poolAfter storedEvents).isSome := by decide
  have hbooking : ((poolAfter storedEvents).get hrun).shared.bookings.lookup 7 =
      some sampleBooking := by decide +revert
  have hactive : ((poolAfter storedEvents).get hrun).shared.ledger.rows.lookup
      (.reservation 20) = some (⟨1, 7, 2, .active⟩ : Reservation) := by decide +revert
  exact ⟨_, (Option.some_get hrun).symm,
    (cancellation_completes _ sampleRows_opening _ _ _
      (reachable_poolAfter (Option.some_get hrun).symm) 7 sampleBooking hbooking rfl 1 (calm 0)
      fun _ => rfl).mpr ⟨⟨20, _, hactive, rfl, rfl⟩, by decide +revert⟩⟩

/-- Request 1 cancels booking 7. The release is executed, its answer is lost,
    and the second attempt finds nothing to release. -/
def stuckEvents : List (Event Request Choice Outside) :=
  storedEvents ++ .start (.cancelBooking (.uuid 7)) ::
    [Choice.proceed, .proceed, .fate (.unanswered (calm 0) timedOut),
      .fate (.answered (calm 0)), .proceed, .proceed].map (.step 1)

/-- The booking stays `CONFIRMED`: every further cancellation is answered with
    `404`. -/
theorem cancellation_stuck :
    ¬ ∀ pool : BookingPool, Reachable FlightService.sampleRows ⟨5, 10⟩ 0 pool →
      (∀ i request program, ¬ pool.Runs i request program) →
      ∀ b booking, pool.shared.bookings.lookup b = some booking →
      booking.status = .confirmed →
      ∃ result s', (cancelBooking (.uuid b)).alone (healthy pool.threads.length (calm 0))
        pool.shared = some (result, s') ∧ Cancelled b booking result s' := by
  intro hclaim
  have hrun : (poolAfter stuckEvents).isSome := by decide
  have hbooking : ((poolAfter stuckEvents).get hrun).shared.bookings.lookup 7 =
      some sampleBooking := by decide +revert
  have hidle : ∀ i < ((poolAfter stuckEvents).get hrun).threads.length,
      ((poolAfter stuckEvents).get hrun).isRunning i = false := by decide +revert
  have hstuck : ∃ s', (cancelBooking (.uuid 7)).alone
      (healthy ((poolAfter stuckEvents).get hrun).threads.length (calm 0))
      ((poolAfter stuckEvents).get hrun).shared =
        some (.error ⟨404, "резерв не найден"⟩, s') := ⟨_, rfl⟩
  obtain ⟨s', hstuck⟩ := hstuck
  obtain ⟨result, s'', halone, hcancelled⟩ :=
    hclaim _ (reachable_poolAfter (Option.some_get hrun).symm) (Service.not_runs hidle) 7
      sampleBooking hbooking rfl
  obtain ⟨rfl, _⟩ := Prod.mk.inj (Option.some.inj (hstuck.symm.trans halone))
  cases hcancelled.answer

end SoaHomework.BookingService
