import SoaHomework.BookingService

/-!
# The booking saga

A booking and its seat reservation live in two databases and are kept together
by calls that may be lost, repeated or late. `Saga` relates the two databases
to the attempts that were made; every step of every request keeps it, whatever
the interleaving and the fate of the attempts.
-/

namespace SoaHomework.BookingService

open StatementProgram Grpc GrpcClient
open FlightService (Uuid IdText Rows Rpc Ledger Execution StatusChange Reservation Accounts
  SeatStep Reserving Releasing)

/-- The booking has a reservation. -/
def Reserved (s : State) (b : Uuid) : Prop :=
  ∃ id, ∃ r : Reservation, s.ledger.rows.lookup (.reservation id) = some r ∧ r.bookingID = b

/-- What holds of the two databases and the attempts in every reachable state. -/
structure Saga (rows₀ : Rows) (s : State) : Prop where
  accounts : Accounts rows₀ s.ledger.rows s.ledger.journal
  late : ∀ entry ∈ s.late, entry ∈ s.issued
  effective : ∀ entry ∈ s.effective, entry ∈ s.issued
  /-- only the request that made an id reserves seats for it, -/
  owner : ∀ i f b n, (i, .reserveSeats f b n) ∈ s.issued → s.owner b = some i
  /-- always the same seats, -/
  same : ∀ i f b n f' n', (i, .reserveSeats f b n) ∈ s.issued →
    (i, .reserveSeats f' b n') ∈ s.issued → f' = f ∧ n' = n
  /-- and every reservation comes from an attempt that took effect -/
  requested : ∀ id (r : Reservation), s.ledger.rows.lookup (.reservation id) = some r →
    ∃ i, (i, .reserveSeats r.flightID r.bookingID r.seatCount) ∈ s.effective
  reserved : ∀ i f b n, (i, .reserveSeats f b n) ∈ s.effective → Reserved s b
  booked : ∀ b booking, s.bookings.lookup b = some booking →
    ∃ id, ∃ r : Reservation, s.ledger.rows.lookup (.reservation id) = some r ∧
      r.bookingID = b ∧ r.flightID = booking.flightID ∧ r.seatCount = booking.seatCount
  /-- A release is attempted for a reserved booking only: by the request that
      made the id when it has stored no booking, by the other ones when there is
      a booking. -/
  releases : ∀ i b, (i, .releaseReservation b) ∈ s.issued →
    Reserved s b ∧ (s.owner b = some i ↔ s.bookings.lookup b = none)
  settled : ∀ i b, (i, .releaseReservation b) ∈ s.effective → ∀ id (r : Reservation),
    s.ledger.rows.lookup (.reservation id) = some r → r.bookingID = b → r.status ≠ .active
  released : ∀ id (r : Reservation), s.ledger.rows.lookup (.reservation id) = some r →
    r.status ≠ .active → ∃ i, (i, .releaseReservation r.bookingID) ∈ s.effective

variable {rows₀ : Rows} {s s' : State} {i : Nat} {rpc : Rpc} {how : Execution}

/-! ## Attempts that are executed -/

theorem mem_record {ledger : Ledger} {entry : Nat × Rpc} :
    entry ∈ (s.record i rpc how ledger).effective ↔
      entry ∈ s.effective ∨ (rpc.effective how s.ledger = true ∧ entry = (i, rpc)) := by
  simp only [State.record]
  cases rpc.effective how s.ledger with
  | true => simp [or_comm]
  | false => simp

/-- The flight service executes an attempt that was made. -/
theorem Saga.record {ledger' : Ledger} {result : Except RpcError rpc.Reply}
    (h : Saga rows₀ s) (hissued : (i, rpc) ∈ s.issued)
    (hrun : rpc.run how s.ledger = some (result, ledger')) :
    Saga rows₀ (s.record i rpc how ledger') := by
  have hstep := FlightService.seatStep_of_run h.accounts hrun
  have heffect := FlightService.effect_of_run h.accounts hrun
  have hreserved : ∀ b, Reserved s b → Reserved (s.record i rpc how ledger') b := by
    rintro b ⟨id, r, hr, hbooking⟩
    obtain ⟨r', hr', hbooking', _⟩ := hstep.kept hr
    exact ⟨id, r', hr', hbooking'.trans hbooking⟩
  refine ⟨hstep.accounts h.accounts, h.late, ?_, h.owner, h.same, ?_, ?_, ?_, ?_, ?_, ?_⟩
  · intro entry hentry
    rcases mem_record.mp hentry with hold | ⟨_, rfl⟩
    · exact h.effective entry hold
    · exact hissued
  · intro id r' hr'
    rcases heffect.origin id r' hr' with ⟨r, hr, hbooking, hflight, hcount⟩ |
      ⟨_, rfl, heffective, _⟩
    · obtain ⟨j, hj⟩ := h.requested id r hr
      rw [hbooking, hflight, hcount]
      exact ⟨j, mem_record.mpr (Or.inl hj)⟩
    · exact ⟨i, mem_record.mpr (Or.inr ⟨heffective, rfl⟩)⟩
  · intro j f b n hj
    rcases mem_record.mp hj with hold | ⟨heffective, heq⟩
    · exact hreserved b (h.reserved j f b n hold)
    · obtain ⟨rfl, rfl⟩ := Prod.mk.inj heq
      exact heffect.reserved f b n rfl heffective
  · intro b booking hbooking
    obtain ⟨id, r, hr, hb, hflight, hcount⟩ := h.booked b booking hbooking
    obtain ⟨r', hr', hb', hflight', hcount', _⟩ := hstep.kept hr
    exact ⟨id, r', hr', hb'.trans hb, hflight'.trans hflight, hcount'.trans hcount⟩
  · intro j b hj
    obtain ⟨hold, howner⟩ := h.releases j b hj
    exact ⟨hreserved b hold, howner⟩
  · intro j b hj id r' hr' hbooking hactive
    rcases mem_record.mp hj with hold | ⟨heffective, heq⟩
    · obtain ⟨⟨id₀, r₀, hr₀, hbooking₀⟩, _⟩ := h.releases j b (h.effective _ hold)
      rcases heffect.origin id r' hr' with ⟨r, hr, hb, _⟩ | ⟨_, _, _, habsent⟩
      · obtain ⟨r'', hr'', _, _, _, hstatus⟩ := hstep.kept hr
        obtain rfl := Option.some.inj (hr'.symm.trans hr'')
        exact h.settled j b hold id r hr (hb.symm.trans hbooking) (hstatus hactive)
      · exact habsent id₀ r₀ hr₀ (hbooking₀.trans hbooking.symm)
    · obtain ⟨rfl, rfl⟩ := Prod.mk.inj heq
      exact heffect.settled b rfl heffective id r' hr' hbooking hactive
  · intro id r' hr' hinactive
    rcases heffect.released id r' hr' hinactive with ⟨r, hr, hbooking, hinactive₀⟩ |
      ⟨rfl, heffective⟩
    · obtain ⟨j, hj⟩ := h.released id r hr hinactive₀
      rw [hbooking]
      exact ⟨j, mem_record.mpr (Or.inl hj)⟩
    · exact ⟨i, mem_record.mpr (Or.inr ⟨heffective, rfl⟩)⟩

/-- What is not part of the saga may change freely. -/
theorem Saga.congr (h : Saga rows₀ s) (hbookings : s'.bookings = s.bookings)
    (hledger : s'.ledger = s.ledger) (hlate : ∀ entry ∈ s'.late, entry ∈ s.late)
    (howner : s'.owner = s.owner) (hissued : s'.issued = s.issued)
    (heffective : s'.effective = s.effective) : Saga rows₀ s' := by
  obtain ⟨bookings, ledger, breaker, clock, late, owner, issued, effective⟩ := s'
  subst hbookings hledger howner hissued heffective
  exact ⟨h.accounts, fun entry hentry => h.late entry (hlate entry hentry), h.effective, h.owner,
    h.same, h.requested, h.reserved, h.booked, h.releases, h.settled, h.released⟩

/-! ## What a request must know at each step -/

/-- A release by the request that creates the booking is for its own id. -/
def Entitled : Request → Nat → Uuid → State → Prop
  | .createBooking _, i, b, s => s.owner b = some i
  | .cancelBooking _, _, _, _ => True

/-- The condition under which request `i` executes a step. -/
def Ready (request : Request) (i : Nat) (op : Op) (s : State) : Prop :=
  match op with
  | .attempt (.reserveSeats f b n) => s.owner b = some i ∧
      ∀ f' n', (i, .reserveSeats f' b n') ∈ s.issued → f' = f ∧ n' = n
  | .attempt (.releaseReservation b) => Reserved s b ∧
      (s.owner b = some i ↔ s.bookings.lookup b = none) ∧ Entitled request i b s
  | .insertBooking booking => s.owner booking.id = some i ∧
      (i, .releaseReservation booking.id) ∉ s.issued ∧
      ∃ id, ∃ r : Reservation, s.ledger.rows.lookup (.reservation id) = some r ∧
        r.bookingID = booking.id ∧ r.flightID = booking.flightID ∧
        r.seatCount = booking.seatCount
  | _ => True

variable {request : Request}

theorem Saga.issue (h : Saga rows₀ s) (hready : Ready request i (.attempt rpc) s) :
    Saga rows₀ (s.issue i rpc) := by
  refine ⟨h.accounts, fun entry hentry => List.mem_cons_of_mem _ (h.late entry hentry),
    fun entry hentry => List.mem_cons_of_mem _ (h.effective entry hentry), ?_, ?_, h.requested,
    h.reserved, h.booked, ?_, h.settled, h.released⟩
  · intro j f b n hj
    rcases List.mem_cons.mp hj with heq | hold
    · obtain ⟨rfl, rfl⟩ := Prod.mk.inj heq
      exact hready.1
    · exact h.owner j f b n hold
  · intro j f b n f' n' hj hj'
    rcases List.mem_cons.mp hj with heq | hold
    · obtain ⟨rfl, rfl⟩ := Prod.mk.inj heq
      rcases List.mem_cons.mp hj' with heq' | hold'
      · cases heq'
        exact ⟨rfl, rfl⟩
      · exact hready.2 f' n' hold'
    · rcases List.mem_cons.mp hj' with heq' | hold'
      · obtain ⟨rfl, rfl⟩ := Prod.mk.inj heq'
        obtain ⟨hflight, hcount⟩ := hready.2 f n hold
        exact ⟨hflight.symm, hcount.symm⟩
      · exact h.same j f b n f' n' hold hold'
  · intro j b hj
    rcases List.mem_cons.mp hj with heq | hold
    · obtain ⟨rfl, rfl⟩ := Prod.mk.inj heq
      exact ⟨hready.1, hready.2.1⟩
    · exact h.releases j b hold

/-- An id that nobody has made stands for nothing. -/
theorem Saga.unknown (h : Saga rows₀ s) {b : Uuid} (hb : s.owner b = none) : ¬ Reserved s b := by
  rintro ⟨id, r, hr, rfl⟩
  obtain ⟨j, hj⟩ := h.requested id r hr
  rw [h.owner j _ _ _ (h.effective _ hj)] at hb
  cases hb

theorem Saga.mint (h : Saga rows₀ s) {b : Uuid} (hb : s.owner b = none) :
    Saga rows₀ { s with owner := Function.update s.owner b (some i) } := by
  have hother : ∀ b', b' ≠ b → Function.update s.owner b (some i) b' = s.owner b' :=
    fun b' hne => Function.update_of_ne hne _ _
  refine ⟨h.accounts, h.late, h.effective, ?_, h.same, h.requested, h.reserved, h.booked, ?_,
    h.settled, h.released⟩
  · intro j f b' n hj
    have howner := h.owner j f b' n hj
    refine (hother b' ?_).trans howner
    rintro rfl
    rw [hb] at howner
    cases howner
  · intro j b' hj
    obtain ⟨hreserved, howner⟩ := h.releases j b' hj
    refine ⟨hreserved, Iff.trans ?_ howner⟩
    simp only [hother b' fun heq => h.unknown hb (heq ▸ hreserved)]

theorem Saga.insert (h : Saga rows₀ s) {booking : Booking}
    (hready : Ready request i (.insertBooking booking) s) :
    Saga rows₀ { s with bookings := s.bookings.insert booking.id booking } := by
  obtain ⟨howner, hunreleased, hbooked⟩ := hready
  refine ⟨h.accounts, h.late, h.effective, h.owner, h.same, h.requested, h.reserved, ?_, ?_,
    h.settled, h.released⟩
  · intro b booking' hlookup
    by_cases hb : b = booking.id
    · subst hb
      rw [AList.lookup_insert, Option.some.injEq] at hlookup
      exact hlookup ▸ hbooked
    · rw [AList.lookup_insert_ne hb] at hlookup
      exact h.booked b booking' hlookup
  · intro j b hj
    obtain ⟨hreserved, hiff⟩ := h.releases j b hj
    refine ⟨hreserved, ?_⟩
    by_cases hb : b = booking.id
    · subst hb
      have hother : j ≠ i := by
        rintro rfl
        exact hunreleased hj
      rw [AList.lookup_insert, howner]
      simp [Ne.symm hother]
    · rw [AList.lookup_insert_ne hb]
      exact hiff

theorem Saga.update (h : Saga rows₀ s) {b : Uuid} {booking : Booking}
    (hbooking : s.bookings.lookup b = some booking) (status : BookingStatus) :
    Saga rows₀ { s with
      bookings := s.bookings.insert b { booking with status := status } } := by
  refine ⟨h.accounts, h.late, h.effective, h.owner, h.same, h.requested, h.reserved, ?_, ?_,
    h.settled, h.released⟩
  · intro b' booking' hlookup
    by_cases hb : b' = b
    · subst hb
      rw [AList.lookup_insert, Option.some.injEq] at hlookup
      subst hlookup
      exact h.booked b' booking hbooking
    · rw [AList.lookup_insert_ne hb] at hlookup
      exact h.booked b' booking' hlookup
  · intro j b' hj
    obtain ⟨hreserved, hiff⟩ := h.releases j b' hj
    refine ⟨hreserved, ?_⟩
    by_cases hb : b' = b
    · subst hb
      rw [hbooking] at hiff
      rw [AList.lookup_insert, hiff]
      simp
    · rw [AList.lookup_insert_ne hb]
      exact hiff

theorem Saga.changeStatus (h : Saga rows₀ s) {ledger : Ledger} {change : StatusChange}
    (hchange : s.ledger.changeStatus change = some ledger) :
    Saga rows₀ { s with ledger := ledger } := by
  have hreservations : ∀ id, ledger.rows.lookup (.reservation id) =
      s.ledger.rows.lookup (.reservation id) := FlightService.changeStatus_reservation hchange
  have hreserved : ∀ b, Reserved { s with ledger := ledger } b ↔ Reserved s b := by
    intro b
    simp only [Reserved, hreservations]
  refine ⟨(FlightService.seatStep_of_changeStatus h.accounts hchange).accounts h.accounts, h.late,
    h.effective, h.owner, h.same, ?_, ?_, ?_, ?_, ?_, ?_⟩
  · simp only [hreservations]
    exact h.requested
  · simp only [hreserved]
    exact h.reserved
  · simp only [hreservations]
    exact h.booked
  · simp only [hreserved]
    exact h.releases
  · simp only [hreservations]
    exact h.settled
  · simp only [hreservations]
    exact h.released

/-! ## What one step does -/

/-- What a step of request `i` answers and leaves. -/
inductive Executed (i : Nat) (s : State) : (op : Op) → Res op → State → Prop where
  | allowed {answer : Bool} (breaker : CircuitBreaker) :
      Executed i s .allow answer { s with breaker := breaker }
  | succeeded (breaker : CircuitBreaker) :
      Executed i s .onSuccess () { s with breaker := breaker }
  | failed {err : CallError} (breaker : CircuitBreaker) :
      Executed i s (.onFailure err) () { s with breaker := breaker }
  | executed {rpc : Rpc} {answer : Except CallError rpc.Reply} {how : Execution}
      {result : Except RpcError rpc.Reply} {ledger : Ledger}
      (hrun : rpc.run how s.ledger = some (result, ledger))
      (hanswer : answer = result.mapError CallError.status ∨
        ∃ err : TransportError, answer = .error err.val) :
      Executed i s (.attempt rpc) answer ((s.issue i rpc).record i rpc how ledger)
  | unanswered {rpc : Rpc} (err : TransportError) {late : List (Nat × Rpc)}
      (hlate : ∀ entry ∈ late, entry ∈ (i, rpc) :: s.late) :
      Executed i s (.attempt rpc) (.error err.val) { s.issue i rpc with late := late }
  | minted {id : Uuid} (hnew : s.owner id = none) :
      Executed i s .newUuid id { s with owner := Function.update s.owner id (some i) }
  | inserted {booking : Booking} (hnew : s.bookings.lookup booking.id = none) :
      Executed i s (.insertBooking booking) (.ok booking)
        { s with bookings := s.bookings.insert booking.id booking }
  | refused {booking : Booking} {error : StoreError} :
      Executed i s (.insertBooking booking) (.error error) s
  | found {id : Uuid} {booking : Booking} (hbooking : s.bookings.lookup id = some booking) :
      Executed i s (.getBooking id) (.ok booking) s
  | missed {id : Uuid} {error : StoreError} : Executed i s (.getBooking id) (.error error) s
  | updated {id : Uuid} {booking : Booking} {status : BookingStatus}
      (hbooking : s.bookings.lookup id = some booking) :
      Executed i s (.updateBookingStatus id status) (.ok { booking with status := status })
        { s with bookings := s.bookings.insert id { booking with status := status } }
  | kept {id : Uuid} {status : BookingStatus} {error : StoreError} :
      Executed i s (.updateBookingStatus id status) (.error error) s

theorem executed_of_meet {fate : Fate} {answer : Except CallError rpc.Reply}
    (h : (s.issue i rpc).meet i rpc fate = some (answer, s')) :
    Executed i s (.attempt rpc) answer s' := by
  cases fate with
  | answered how =>
      simp only [State.meet, State.deliver, Option.map_eq_some_iff, Prod.mk.injEq] at h
      obtain ⟨⟨_, _⟩, ⟨⟨result, ledger⟩, hrun, heq⟩, rfl, rfl⟩ := h
      obtain ⟨rfl, rfl⟩ := Prod.mk.inj heq
      exact .executed hrun (Or.inl rfl)
  | unanswered how err =>
      simp only [State.meet, State.deliver, Option.map_eq_some_iff, Prod.mk.injEq] at h
      obtain ⟨⟨_, _⟩, ⟨⟨result, ledger⟩, hrun, heq⟩, rfl, rfl⟩ := h
      obtain ⟨rfl, rfl⟩ := Prod.mk.inj heq
      exact .executed hrun (Or.inr ⟨err, rfl⟩)
  | lost err =>
      simp only [State.meet, Option.some.injEq, Prod.mk.injEq] at h
      obtain ⟨rfl, rfl⟩ := h
      exact .unanswered err fun entry hentry => List.mem_cons_of_mem _ hentry
  | late err =>
      simp only [State.meet, Option.some.injEq, Prod.mk.injEq] at h
      obtain ⟨rfl, rfl⟩ := h
      exact .unanswered err fun entry hentry => hentry

theorem executed_of_execute {op : Op} {choice : Choice} {answer : Res op}
    (h : execute i op choice s = some (answer, s')) : Executed i s op answer s' := by
  cases op with
  | allow =>
      obtain ⟨rfl, rfl⟩ := Prod.mk.inj (Option.some.inj h)
      exact .allowed _
  | onSuccess =>
      obtain ⟨rfl, rfl⟩ := Prod.mk.inj (Option.some.inj h)
      exact .succeeded _
  | onFailure err =>
      obtain ⟨rfl, rfl⟩ := Prod.mk.inj (Option.some.inj h)
      exact .failed _
  | attempt rpc =>
      cases choice with
      | fate fate => exact executed_of_meet h
      | proceed => cases h
      | failure => cases h
      | generated id => cases h
  | newUuid =>
      cases choice with
      | generated id =>
          simp only [execute, Option.ite_none_right_eq_some, Option.some.injEq,
            Prod.mk.injEq] at h
          obtain ⟨hnew, rfl, rfl⟩ := h
          exact .minted hnew
      | proceed => cases h
      | failure => cases h
      | fate fate => cases h
  | insertBooking booking =>
      cases choice with
      | proceed =>
          simp only [execute] at h
          split at h
          · rename_i hstorable
            obtain ⟨rfl, rfl⟩ := Prod.mk.inj (Option.some.inj h)
            simp only [Bool.and_eq_true, Option.isNone_iff_eq_none] at hstorable
            exact .inserted hstorable.2
          · obtain ⟨rfl, rfl⟩ := Prod.mk.inj (Option.some.inj h)
            exact .refused
      | failure =>
          obtain ⟨rfl, rfl⟩ := Prod.mk.inj (Option.some.inj h)
          exact .refused
      | generated id => cases h
      | fate fate => cases h
  | getBooking id =>
      cases choice with
      | proceed =>
          obtain ⟨rfl, rfl⟩ := Prod.mk.inj (Option.some.inj h)
          cases hbooking : s.bookings.lookup id with
          | none => exact .missed
          | some booking => exact .found hbooking
      | failure =>
          obtain ⟨rfl, rfl⟩ := Prod.mk.inj (Option.some.inj h)
          exact .missed
      | generated id => cases h
      | fate fate => cases h
  | updateBookingStatus id status =>
      cases choice with
      | proceed =>
          simp only [execute] at h
          split at h
          · obtain ⟨rfl, rfl⟩ := Prod.mk.inj (Option.some.inj h)
            exact .kept
          · rename_i booking hbooking
            obtain ⟨rfl, rfl⟩ := Prod.mk.inj (Option.some.inj h)
            exact .updated hbooking
      | failure =>
          obtain ⟨rfl, rfl⟩ := Prod.mk.inj (Option.some.inj h)
          exact .kept
      | generated id => cases h
      | fate fate => cases h

theorem Executed.saga {op : Op} {answer : Res op} (h : Executed i s op answer s')
    (hs : Saga rows₀ s) (hready : Ready request i op s) : Saga rows₀ s' := by
  cases h with
  | allowed => exact hs.congr rfl rfl (fun _ h => h) rfl rfl rfl
  | succeeded => exact hs.congr rfl rfl (fun _ h => h) rfl rfl rfl
  | failed => exact hs.congr rfl rfl (fun _ h => h) rfl rfl rfl
  | executed hrun => exact (hs.issue hready).record (List.mem_cons_self ..) hrun
  | unanswered err hlate =>
      have hissued := hs.issue hready
      refine ⟨hissued.accounts, fun entry hentry => ?_, hissued.effective, hissued.owner,
        hissued.same, hissued.requested, hissued.reserved, hissued.booked, hissued.releases,
        hissued.settled, hissued.released⟩
      rcases List.mem_cons.mp (hlate entry hentry) with rfl | hold
      · exact List.mem_cons_self ..
      · exact hissued.late entry hold
  | minted hnew => exact hs.mint hnew
  | inserted => exact hs.insert hready
  | refused => exact hs
  | found => exact hs
  | missed => exact hs
  | updated hbooking => exact hs.update hbooking _
  | kept => exact hs

/-! ## What the other requests keep -/

/-- From `s` to `s'` nothing that request `j` relies on has changed. -/
structure Undisturbed (j : Nat) (s s' : State) : Prop where
  owner : ∀ b, s'.owner b = some j ↔ s.owner b = some j
  issued : ∀ rpc, (j, rpc) ∈ s'.issued ↔ (j, rpc) ∈ s.issued
  booking : ∀ b, s.owner b = some j →
    (s'.bookings.lookup b = none ↔ s.bookings.lookup b = none)
  stored : ∀ b, s'.bookings.lookup b = none → s.bookings.lookup b = none
  reserved : ∀ b, Reserved s b → Reserved s' b

theorem Undisturbed.of_eq {j : Nat} (howner : s'.owner = s.owner)
    (hbookings : s'.bookings = s.bookings)
    (hissued : ∀ rpc, (j, rpc) ∈ s'.issued ↔ (j, rpc) ∈ s.issued)
    (hreserved : ∀ b, Reserved s b → Reserved s' b) : Undisturbed j s s' :=
  ⟨fun b => by rw [howner], hissued, fun b _ => by rw [hbookings],
    fun b h => by rwa [hbookings] at h, hreserved⟩

theorem Undisturbed.refl (j : Nat) (s : State) : Undisturbed j s s :=
  .of_eq rfl rfl (fun _ => Iff.rfl) fun _ h => h

theorem Undisturbed.trans {j : Nat} {s'' : State} (h : Undisturbed j s s')
    (h' : Undisturbed j s' s'') : Undisturbed j s s'' where
  owner b := (h'.owner b).trans (h.owner b)
  issued rpc := (h'.issued rpc).trans (h.issued rpc)
  booking b hb := (h'.booking b ((h.owner b).mpr hb)).trans (h.booking b hb)
  stored b hb := h.stored b (h'.stored b hb)
  reserved b hb := h'.reserved b (h.reserved b hb)

theorem reserved_of_kept {ledger : Ledger}
    (hstep : SeatStep s.ledger.rows s.ledger.journal ledger.rows ledger.journal)
    (hledger : s'.ledger = ledger) {b : Uuid} (hb : Reserved s b) : Reserved s' b := by
  obtain ⟨id, r, hr, hbooking⟩ := hb
  obtain ⟨r', hr', hbooking', _⟩ := hstep.kept hr
  exact ⟨id, r', by rw [hledger, hr'], hbooking'.trans hbooking⟩

theorem Executed.undisturbed {op : Op} {answer : Res op} (h : Executed i s op answer s')
    (hs : Saga rows₀ s) (hready : Ready request i op s) {j : Nat} (hij : i ≠ j) :
    Undisturbed j s s' := by
  have hissue : ∀ rpc rpc', (j, rpc') ∈ (s.issue i rpc).issued ↔ (j, rpc') ∈ s.issued := by
    intro rpc rpc'
    simp [State.issue, Ne.symm hij]
  cases h with
  | allowed => exact .of_eq rfl rfl (fun _ => Iff.rfl) fun _ h => h
  | succeeded => exact .of_eq rfl rfl (fun _ => Iff.rfl) fun _ h => h
  | failed => exact .of_eq rfl rfl (fun _ => Iff.rfl) fun _ h => h
  | executed hrun =>
      have hstep := FlightService.seatStep_of_run hs.accounts hrun
      exact .of_eq rfl rfl (hissue _) fun _ hb => reserved_of_kept hstep rfl hb
  | unanswered => exact .of_eq rfl rfl (hissue _) fun _ hb => hb
  | @minted id hnew =>
      refine ⟨fun b => ?_, fun _ => Iff.rfl, fun _ _ => Iff.rfl, fun _ h => h, fun _ hb => hb⟩
      by_cases hb : b = id
      · subst hb
        simp [hnew, hij]
      · simp [Function.update_of_ne hb]
  | @inserted booking hnew =>
      refine ⟨fun _ => Iff.rfl, fun _ => Iff.rfl, fun b hb => ?_, fun b hb => ?_,
        fun _ hb => hb⟩
      · rw [AList.lookup_insert_ne]
        rintro rfl
        rw [hready.1] at hb
        exact hij (Option.some.inj hb)
      · by_cases heq : b = booking.id
        · subst heq
          exact hnew
        · rwa [AList.lookup_insert_ne heq] at hb
  | refused => exact .refl j s
  | found => exact .refl j s
  | missed => exact .refl j s
  | kept => exact .refl j s
  | @updated id booking status hbooking =>
      have hsame : ∀ b, (s.bookings.insert id { booking with status := status }).lookup b = none ↔
          s.bookings.lookup b = none := by
        intro b
        by_cases hb : b = id
        · subst hb
          simp [hbooking]
        · rw [AList.lookup_insert_ne hb]
      exact ⟨fun _ => Iff.rfl, fun _ => Iff.rfl, fun b _ => hsame b, fun b => (hsame b).mp,
        fun _ hb => hb⟩

theorem undisturbed_outside {change : Outside} (h : outside change s = some s')
    (hs : Saga rows₀ s) : Saga rows₀ s' ∧ ∀ j, Undisturbed j s s' := by
  cases change with
  | elapse time =>
      obtain rfl := Option.some.inj h
      exact ⟨hs.congr rfl rfl (fun _ h => h) rfl rfl rfl,
        fun j => .of_eq rfl rfl (fun _ => Iff.rfl) fun _ h => h⟩
  | drop k =>
      obtain rfl := Option.some.inj h
      exact ⟨hs.congr rfl rfl (fun _ h => List.mem_of_mem_eraseIdx h) rfl rfl rfl,
        fun j => .of_eq rfl rfl (fun _ => Iff.rfl) fun _ h => h⟩
  | deliver k how =>
      simp only [outside] at h
      split at h
      · cases h
      · rename_i i rpc hlate
        simp only [State.deliver, Option.map_eq_some_iff] at h
        obtain ⟨_, ⟨⟨result, ledger⟩, hrun, rfl⟩, rfl⟩ := h
        have harrived : Saga rows₀ { s with late := s.late.eraseIdx k } :=
          hs.congr rfl rfl (fun _ h => List.mem_of_mem_eraseIdx h) rfl rfl rfl
        have hissued := hs.late _ (List.mem_of_getElem? hlate)
        have hstep := FlightService.seatStep_of_run harrived.accounts hrun
        exact ⟨harrived.record hissued hrun,
          fun j => .of_eq rfl rfl (fun _ => Iff.rfl) fun _ hb => reserved_of_kept hstep rfl hb⟩
  | changeStatus change =>
      simp only [outside, Option.map_eq_some_iff] at h
      obtain ⟨ledger, hchange, rfl⟩ := h
      have hstep := FlightService.seatStep_of_changeStatus hs.accounts hchange
      exact ⟨hs.changeStatus hchange,
        fun j => .of_eq rfl rfl (fun _ => Iff.rfl) fun _ hb => reserved_of_kept hstep rfl hb⟩

end SoaHomework.BookingService
