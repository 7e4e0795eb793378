import SoaHomework.BookingOutcomes

/-!
# The life of a booking

A cancellation is stored only after the flight service has confirmed the release,
so a `CANCELLED` booking has had its seats returned, and what a request has been
answered with stays true. The discipline of this module takes the saga as given: a
step is permitted where the saga is `Ready` for it.
-/

namespace SoaHomework.BookingService

open StatementProgram Grpc GrpcClient
open FlightService (Uuid IdText Rows Rpc Ledger Execution StatusChange Reservation Accounts
  SeatStep Releasing returnsOf)

variable {rows₀ : Rows} {s s' : State} {i : Nat} {request : Request}

/-- What can become of a booking: only its status changes, and not back. -/
structure BookingMoves (booking booking' : Booking) : Prop where
  columns : booking' = { booking with status := booking'.status }
  cancelled : booking.status = .cancelled → booking'.status = .cancelled

theorem BookingMoves.refl (booking : Booking) : BookingMoves booking booking := ⟨rfl, id⟩

theorem BookingMoves.trans {booking booking' booking'' : Booking}
    (h : BookingMoves booking booking') (h' : BookingMoves booking' booking'') :
    BookingMoves booking booking'' where
  columns := by
    rw [h'.columns, h.columns]
  cancelled hcancelled := h'.cancelled (h.cancelled hcancelled)

/-- A `CANCELLED` booking does not change. -/
theorem BookingMoves.eq_of_cancelled {booking booking' : Booking}
    (h : BookingMoves booking booking') (hcancelled : booking.status = .cancelled) :
    booking' = booking := by
  rw [h.columns, h.cancelled hcancelled, ← hcancelled]

/-- The reservation of the booking has given its seats back. -/
def Returned (b : Uuid) (s : State) : Prop :=
  ∃ id, ∃ r : Reservation, s.ledger.rows.lookup (.reservation id) = some r ∧
    r.bookingID = b ∧ r.status ≠ .active

/-- From `s` to `s'` no booking is lost and no seat that has been returned is taken
    back. -/
structure Kept (s s' : State) : Prop where
  bookings : ∀ b booking, s.bookings.lookup b = some booking →
    ∃ booking', s'.bookings.lookup b = some booking' ∧ BookingMoves booking booking'
  returned : ∀ b, Returned b s → Returned b s'

theorem Kept.refl (s : State) : Kept s s :=
  ⟨fun _ booking h => ⟨booking, h, .refl booking⟩, fun _ h => h⟩

theorem Kept.trans {s'' : State} (h : Kept s s') (h' : Kept s' s'') : Kept s s'' where
  bookings b booking hbooking := by
    obtain ⟨booking', hbooking', hmoves⟩ := h.bookings b booking hbooking
    obtain ⟨booking'', hbooking'', hmoves'⟩ := h'.bookings b booking' hbooking'
    exact ⟨booking'', hbooking'', hmoves.trans hmoves'⟩
  returned b hb := h'.returned b (h.returned b hb)

theorem Kept.of_ledger (hbookings : s'.bookings = s.bookings)
    (hstep : SeatStep s.ledger.rows s.ledger.journal s'.ledger.rows s'.ledger.journal) :
    Kept s s' where
  bookings b booking hbooking := ⟨booking, by rw [hbookings, hbooking], .refl booking⟩
  returned b hb := by
    obtain ⟨id, r, hr, hbooking, hinactive⟩ := hb
    obtain ⟨r', hr', hbooking', _, _, hactive⟩ := hstep.kept hr
    exact ⟨id, r', hr', hbooking'.trans hbooking, fun h => hinactive (hactive h)⟩

/-- What holds of the stored bookings. -/
structure Ledgered (s : State) : Prop where
  id : ∀ b booking, s.bookings.lookup b = some booking → booking.id = b
  returned : ∀ b booking, s.bookings.lookup b = some booking → booking.status = .cancelled →
    Returned b s

/-- A new booking is `CONFIRMED`, and one whose seats are back is `CANCELLED`. -/
def Honest (op : Op) (s : State) : Prop :=
  match op with
  | .insertBooking booking => booking.status = .confirmed
  | .updateBookingStatus id status => status = .cancelled ∧ Returned id s
  | _ => True

/-- What an answer tells of the stored bookings. -/
def told (request : Request) (result : Except HttpError HttpReply) (s : State) : Prop :=
  match request, result with
  | .createBooking _, .ok reply => ∃ booking booking', reply = ⟨201, toBookingResponse booking⟩ ∧
      booking.status = .confirmed ∧ s.bookings.lookup booking.id = some booking' ∧
      BookingMoves booking booking'
  | .cancelBooking id, .ok reply => ∃ b booking, id = .uuid b ∧
      reply = ⟨200, toBookingResponse booking⟩ ∧ booking.status = .cancelled ∧
      s.bookings.lookup b = some booking
  | _, .error _ => True

def keeping (rows₀ : Rows) : Discipline Op HttpError HttpReply Request State where
  inv s := Saga rows₀ s ∧ Ledgered s
  rely _ _ s s' := Kept s s'
  guarantee _ _ s s' := Kept s s'
  unused _ _ := True
  compatible _ _ := True
  permitted := Ready
  known _ _ op s := Honest op s
  answer request _ result s := told request result s

theorem told_kept {result : Except HttpError HttpReply} (hkept : Kept s s')
    (h : told request result s) : told request result s' := by
  cases request with
  | createBooking body =>
      cases result with
      | error error => trivial
      | ok reply =>
          obtain ⟨booking, booking', hreply, hconfirmed, hstored, hmoves⟩ := h
          obtain ⟨booking'', hstored', hmoves'⟩ := hkept.bookings _ _ hstored
          exact ⟨booking, booking'', hreply, hconfirmed, hstored', hmoves.trans hmoves'⟩
  | cancelBooking id =>
      cases result with
      | error error => trivial
      | ok reply =>
          obtain ⟨b, booking, hid, hreply, hcancelled, hstored⟩ := h
          obtain ⟨booking', hstored', hmoves⟩ := hkept.bookings b booking hstored
          obtain rfl := hmoves.eq_of_cancelled hcancelled
          exact ⟨b, booking', hid, hreply, hcancelled, hstored'⟩

/-! ## What a step keeps -/

theorem lookup_insert_cases {bookings : Bookings} {id b : Uuid} {booking booking' : Booking}
    (h : (bookings.insert id booking).lookup b = some booking') :
    (b = id ∧ booking' = booking) ∨ (b ≠ id ∧ bookings.lookup b = some booking') := by
  by_cases hb : b = id
  · subst hb
    rw [AList.lookup_insert, Option.some.injEq] at h
    exact Or.inl ⟨rfl, h.symm⟩
  · rw [AList.lookup_insert_ne hb] at h
    exact Or.inr ⟨hb, h⟩

theorem Ledgered.of_kept (h : Ledgered s) (hkept : Kept s s')
    (hbookings : s'.bookings = s.bookings) : Ledgered s' where
  id b booking hbooking := h.id b booking (hbookings ▸ hbooking)
  returned b booking hbooking hcancelled :=
    hkept.returned b (h.returned b booking (hbookings ▸ hbooking) hcancelled)

theorem Ledgered.insert (h : Ledgered s) {booking : Booking}
    (hhonest : Honest (.insertBooking booking) s) :
    Ledgered { s with bookings := s.bookings.insert booking.id booking } where
  id b booking' hbooking := by
    rcases lookup_insert_cases hbooking with ⟨rfl, rfl⟩ | ⟨_, hold⟩
    · rfl
    · exact h.id b booking' hold
  returned b booking' hbooking hcancelled := by
    rcases lookup_insert_cases hbooking with ⟨rfl, rfl⟩ | ⟨_, hold⟩
    · rw [hhonest] at hcancelled
      cases hcancelled
    · exact h.returned b booking' hold hcancelled

theorem Ledgered.update (h : Ledgered s) {id : Uuid} {booking : Booking} {status : BookingStatus}
    (hstored : s.bookings.lookup id = some booking)
    (hhonest : Honest (.updateBookingStatus id status) s) :
    Ledgered { s with
      bookings := s.bookings.insert id { booking with status := status } } where
  id b booking' hbooking := by
    rcases lookup_insert_cases hbooking with ⟨rfl, rfl⟩ | ⟨_, hold⟩
    · exact h.id b booking hstored
    · exact h.id b booking' hold
  returned b booking' hbooking hcancelled := by
    rcases lookup_insert_cases hbooking with ⟨rfl, rfl⟩ | ⟨_, hold⟩
    · exact hhonest.2
    · exact h.returned b booking' hold hcancelled

/-- An honest step keeps the bookings and what has been returned. -/
theorem Executed.kept_ledgered {op : Op} {answer : Res op} (h : Executed i s op answer s')
    (hs : Saga rows₀ s) (hledgered : Ledgered s) (hhonest : Honest op s) :
    Kept s s' ∧ Ledgered s' := by
  have hledger : s'.bookings = s.bookings →
      SeatStep s.ledger.rows s.ledger.journal s'.ledger.rows s'.ledger.journal →
      Kept s s' ∧ Ledgered s' := by
    intro hbookings hstep
    have hkept := Kept.of_ledger hbookings hstep
    exact ⟨hkept, hledgered.of_kept hkept hbookings⟩
  cases h with
  | allowed => exact hledger rfl .unchanged
  | succeeded => exact hledger rfl .unchanged
  | failed => exact hledger rfl .unchanged
  | executed hrun => exact hledger rfl (FlightService.seatStep_of_run hs.accounts hrun)
  | unanswered => exact hledger rfl .unchanged
  | minted => exact hledger rfl .unchanged
  | refused => exact hledger rfl .unchanged
  | found => exact hledger rfl .unchanged
  | missed => exact hledger rfl .unchanged
  | kept => exact hledger rfl .unchanged
  | @inserted booking hnew =>
      refine ⟨⟨fun b booking' hbooking => ⟨booking', ?_, .refl booking'⟩, fun _ h => h⟩,
        hledgered.insert hhonest⟩
      rw [AList.lookup_insert_ne, hbooking]
      rintro rfl
      rw [hnew] at hbooking
      cases hbooking
  | @updated id booking status hstored =>
      refine ⟨⟨fun b booking' hbooking => ?_, fun _ h => h⟩, hledgered.update hstored hhonest⟩
      by_cases hb : b = id
      · subst hb
        obtain rfl := Option.some.inj (hstored.symm.trans hbooking)
        exact ⟨_, AList.lookup_insert _, rfl, fun _ => hhonest.1⟩
      · exact ⟨booking', (AList.lookup_insert_ne hb).trans hbooking, .refl booking'⟩

theorem kept_outside {change : Outside} (h : outside change s = some s') (hs : Saga rows₀ s) :
    s'.bookings = s.bookings ∧
      SeatStep s.ledger.rows s.ledger.journal s'.ledger.rows s'.ledger.journal := by
  cases change with
  | elapse time =>
      obtain rfl := Option.some.inj h
      exact ⟨rfl, .unchanged⟩
  | drop k =>
      obtain rfl := Option.some.inj h
      exact ⟨rfl, .unchanged⟩
  | deliver k how =>
      simp only [outside] at h
      split at h
      · cases h
      · simp only [State.deliver, Option.map_eq_some_iff] at h
        obtain ⟨_, ⟨⟨result, ledger⟩, hrun, rfl⟩, rfl⟩ := h
        exact ⟨rfl, FlightService.seatStep_of_run hs.accounts hrun⟩
  | changeStatus change =>
      simp only [outside, Option.map_eq_some_iff] at h
      obtain ⟨ledger, hchange, rfl⟩ := h
      exact ⟨rfl, FlightService.seatStep_of_changeStatus hs.accounts hchange⟩

/-! ## The requests -/

/-- An honest step. -/
theorem triple_honest {op : Op} {pre : State → Prop} (middle : Res op → State → Prop)
    {ε β : Type} {next : Res op → Program Op Res ε β} {post : Except ε β → State → Prop}
    (hstable : (keeping rows₀).Stable request i pre) (hhonest : ∀ s, pre s → Honest op s)
    (hexec : ∀ s answer s', Saga rows₀ s → Ledgered s → pre s → Executed i s op answer s' →
      middle answer s')
    (hnext : ∀ answer, (keeping rows₀).Triple service request i (middle answer)
      (next answer) post) :
    (keeping rows₀).Triple service request i pre (.step op next) post := by
  refine Discipline.Triple.step middle hstable (fun s hs hpre => ⟨hhonest s hpre, ?_⟩) hnext
  intro hready choice answer s' hrun
  have hexecuted := executed_of_execute hrun
  obtain ⟨hkept, hledgered⟩ := hexecuted.kept_ledgered hs.1 hs.2 (hhonest s hpre)
  exact ⟨⟨hexecuted.saga hs.1 hready, hledgered⟩, hkept,
    hexec s answer s' hs.1 hs.2 hpre hexecuted⟩

theorem stable_true : (keeping rows₀).Stable request i fun _ => True :=
  fun _ _ _ _ _ => trivial

theorem stable_returned (b : Uuid) : (keeping rows₀).Stable request i (Returned b) :=
  fun _ _ _ hkept => hkept.returned b

/-- What an attempt of a call that has succeeded has established. -/
theorem triple_callKept (rpc : Rpc) (fact : State → Prop)
    (hstable : ∀ s s', Kept s s' → fact s → fact s')
    (hexec : ∀ s (resp : rpc.Reply) s', Saga rows₀ s →
      Executed i s (.attempt rpc) (Except.ok resp) s' → fact s') :
    (keeping rows₀).Triple service request i (fun _ => True) (call rpc) fun result s =>
      ∀ resp, result = .ok resp → fact s := by
  refine triple_callWithRetry (fun _ => True) (fun result s => ∀ resp, result = .ok resp → fact s)
    ?_ ?_ (fun _ _ _ _ _ => trivial) (fun resp => ?_) fun err => ?_
  · refine triple_honest (fun _ _ => True) stable_true (fun _ _ => trivial)
      (fun _ _ _ _ _ _ _ => trivial) fun allowed => Discipline.Triple.ret fun s _ _ => ?_
    cases allowed with
    | true => trivial
    | false => exact fun resp heq => by cases heq
  · refine triple_honest (fun (answer : Except CallError rpc.Reply) s =>
      ∀ resp, answer = .ok resp → fact s) stable_true (fun _ _ => trivial)
      (fun s answer s' hs _ _ hexecuted resp heq => ?_) fun answer => ?_
    · subst heq
      exact hexec s resp s' hs hexecuted
    · cases answer with
      | ok resp => exact Discipline.Triple.ret fun _ _ h => h
      | error err => exact Discipline.Triple.fail fun _ _ h => h
  · refine triple_honest (fun _ => fact) (fun s s' _ hkept h resp heq => hstable s s' hkept
      (h resp heq)) (fun _ _ => trivial) (fun s _ s' _ _ hpre hexecuted => ?_) fun _ =>
        Discipline.Triple.ret fun _ _ h _ _ => h
    cases hexecuted with
    | succeeded => exact hstable s _ (Kept.of_ledger rfl .unchanged) (hpre resp rfl)
  · exact triple_honest (fun _ _ => True) (fun _ _ _ _ _ _ heq => by cases heq)
      (fun _ _ => trivial) (fun _ _ _ _ _ _ _ => trivial)
      fun _ => Discipline.Triple.ret fun _ _ _ _ heq => by cases heq

theorem triple_callOrWriteKept (rpc : Rpc) (fact : State → Prop)
    (hstable : ∀ s s', Kept s s' → fact s → fact s')
    (hexec : ∀ s (resp : rpc.Reply) s', Saga rows₀ s →
      Executed i s (.attempt rpc) (Except.ok resp) s' → fact s') :
    (keeping rows₀).Triple service request i (fun _ => True) (callOrWrite rpc) fun result s =>
      ∀ resp, result = .ok resp → fact s := by
  refine Discipline.Triple.attempt_bind _ (triple_callKept rpc fact hstable hexec) fun outcome => ?_
  cases outcome with
  | ok resp => exact Discipline.Triple.ret fun s _ h _ _ => h resp rfl
  | error err => exact Discipline.Triple.fail fun s _ _ _ heq => by cases heq

/-- A program that tells nothing. -/
theorem triple_callTrue (rpc : Rpc) :
    (keeping rows₀).Triple service request i (fun _ => True) (call rpc) fun _ _ => True :=
  (triple_callKept rpc (fun _ => True) (fun _ _ _ _ => trivial)
    fun _ _ _ _ _ => trivial).mono (fun _ _ h => h) fun _ _ _ _ => trivial

/-- An answered release has returned the seats. -/
theorem Executed.returned {b : Uuid} {r : Reservation}
    (h : Executed i s (.attempt (.releaseReservation b)) (Except.ok r) s') (hs : Saga rows₀ s) :
    Returned b s' := by
  cases h with
  | @executed _ _ how result ledger hrun hanswer =>
      rcases hanswer with heq | ⟨err, heq⟩
      · cases FlightService.releasing_of_run hs.accounts hrun with
        | @released id row r' hrow hr hbooking hactive heffective =>
            exact ⟨id, _, (FlightService.lookup_reservation_commit id).trans (if_pos rfl), hbooking,
              fun h => by cases h⟩
        | refused => cases heq
      · cases heq

theorem triple_newUuidTrue : (keeping rows₀).Triple service request i (fun _ => True)
    (Program.perform Op.newUuid : Handler Uuid) fun _ _ => True :=
  triple_honest (fun _ _ => True) stable_true (fun _ _ => trivial) (fun _ _ _ _ _ _ _ => trivial)
    fun _ => Discipline.Triple.ret fun _ _ _ => trivial

theorem triple_reserveTrue (f b : Uuid) (n : Int) :
    (keeping rows₀).Triple service request i (fun _ => True) (reserve f b n) fun _ _ => True := by
  refine Discipline.Triple.attempt_bind _ (triple_callTrue (.reserveSeats f b n)) fun outcome => ?_
  cases outcome with
  | ok resp => exact Discipline.Triple.ret fun _ _ _ => trivial
  | error err =>
      intro s _ _
      simp only [Program.raiseIf]
      split
      · trivial
      · trivial

theorem triple_create (body : Option CreateBookingRequest) :
    (keeping rows₀).Triple service (.createBooking body) i (fun _ => True) (createBooking body)
      (told (.createBooking body)) := by
  cases body with
  | none => exact Discipline.Triple.fail fun _ _ _ => trivial
  | some req =>
      refine Discipline.Triple.raiseIf (fun _ _ _ _ => trivial) fun _ => ?_
      cases hflight : req.flightID with
      | empty => exact Discipline.Triple.fail fun _ _ _ => trivial
      | malformed => exact Discipline.Triple.fail fun _ _ _ => trivial
      | uuid f =>
          simp only [readUuid, Program.ret_bind]
          refine Discipline.Triple.bind (fun _ _ => True) ?_ (fun flight => ?_)
            fun _ _ _ _ => trivial
          · exact (triple_callOrWriteKept (.getFlight f) (fun _ => True) (fun _ _ _ _ => trivial)
              fun _ _ _ _ _ => trivial).mono (fun _ _ h => h) fun _ _ _ _ => trivial
          refine Discipline.Triple.bind (fun _ _ => True) triple_newUuidTrue (fun b => ?_)
            fun _ _ _ _ => trivial
          refine Discipline.Triple.bind (fun _ _ => True) (triple_reserveTrue f b req.seatCount)
            (fun _ => ?_) fun _ _ _ _ => trivial
          refine triple_honest (fun (outcome : Except StoreError Booking) s =>
            ∀ created, outcome = .ok created → created.status = .confirmed ∧
              s.bookings.lookup created.id = some created) stable_true (fun _ _ => rfl)
            (fun s outcome s' _ _ _ hexecuted created heq => ?_) fun outcome => ?_
          · subst heq
            cases hexecuted with
            | inserted => exact ⟨rfl, AList.lookup_insert _⟩
          · cases outcome with
            | ok created =>
                refine Discipline.Triple.ret fun s _ hstored => ?_
                obtain ⟨hconfirmed, hcreated⟩ := hstored created rfl
                exact ⟨created, created, rfl, hconfirmed, hcreated, .refl created⟩
            | error error =>
                refine Discipline.Triple.weaken (fun _ => True) ?_ fun _ _ _ => trivial
                refine Discipline.Triple.attempt_bind _ (triple_callTrue (.releaseReservation b))
                  fun _ => ?_
                exact Discipline.Triple.fail fun _ _ _ => trivial

theorem triple_cancel (id : IdText) :
    (keeping rows₀).Triple service (.cancelBooking id) i (fun _ => True) (cancelBooking id)
      (told (.cancelBooking id)) := by
  cases id with
  | empty => exact Discipline.Triple.fail fun _ _ _ => trivial
  | malformed => exact Discipline.Triple.fail fun _ _ _ => trivial
  | uuid b =>
      simp only [cancelBooking, readUuid, Program.ret_bind]
      refine Discipline.Triple.bind (fun _ _ => True) ?_ (fun booking => ?_)
        fun _ _ _ _ => trivial
      · refine triple_honest (fun _ _ => True) stable_true (fun _ _ => trivial)
          (fun _ _ _ _ _ _ _ => trivial) fun outcome => ?_
        rcases outcome with (error | error) | booking
        · exact Discipline.Triple.fail fun _ _ _ => trivial
        · exact Discipline.Triple.fail fun _ _ _ => trivial
        · exact Discipline.Triple.ret fun _ _ _ => trivial
      refine Discipline.Triple.raiseIf (fun _ _ _ _ => trivial) fun _ => ?_
      refine Discipline.Triple.bind _ (triple_callOrWriteKept (.releaseReservation b) _
        (fun _ _ hkept => hkept.returned b) fun _ _ _ hs hexecuted => hexecuted.returned hs)
        (fun r => ?_) fun _ _ _ _ => trivial
      refine Discipline.Triple.weaken (Returned b) ?_ fun s _ h => h r rfl
      refine triple_honest (fun (outcome : Except StoreError Booking) s =>
        ∀ updated, outcome = .ok updated → updated.status = .cancelled ∧
          s.bookings.lookup b = some updated) (stable_returned b) (fun s h => ⟨rfl, h⟩)
        (fun s outcome s' _ _ _ hexecuted updated heq => ?_) fun outcome => ?_
      · subst heq
        cases hexecuted with
        | updated => exact ⟨rfl, AList.lookup_insert _⟩
      · cases outcome with
        | ok updated =>
            refine Discipline.Triple.ret fun s _ hstored => ?_
            obtain ⟨hcancelled, hupdated⟩ := hstored updated rfl
            exact ⟨b, updated, rfl, rfl, hcancelled, hupdated⟩
        | error error => exact Discipline.Triple.fail fun _ _ _ => trivial

/-! ## Every run -/

theorem keeping_sound : (keeping rows₀).Sound service where
  rely_refl _ _ s := .refl s
  rely_trans _ _ _ _ _ h h' := h.trans h'
  guarantee_rely _ _ _ _ _ _ _ _ _ h := h
  guarantee_unused _ _ _ _ _ _ _ _ := trivial
  guarantee_answer _ _ _ _ _ _ _ _ _ h hanswer := told_kept h hanswer
  close_inv _ _ h := h
  close_guarantee _ _ s _ := .refl s
  close_answer _ _ _ _ _ h := h
  answer_stable _ _ _ _ _ _ hrely h := told_kept hrely h
  outside_inv _ _ _ h hs := by
    obtain ⟨hbookings, hstep⟩ := kept_outside h hs.1
    exact ⟨(undisturbed_outside h hs.1).1, hs.2.of_kept (.of_ledger hbookings hstep) hbookings⟩
  outside_rely _ _ _ h hs _ _ := by
    obtain ⟨hbookings, hstep⟩ := kept_outside h hs.1
    exact .of_ledger hbookings hstep
  outside_unused _ _ _ _ _ _ := trivial
  handler_safe request i := by
    cases request with
    | createBooking body => exact triple_create body
    | cancelBooking id => exact triple_cancel id

variable {cfg : CBConfig} {clock : Int} {pool first final : BookingPool}

/-- Every step of a reachable pool is permitted. -/
theorem permitted_of_reachable (h : Opening rows₀) (hpool : Reachable rows₀ cfg clock pool)
    (event : Event Request Choice Outside) : (keeping rows₀).Allowed pool event := by
  have hholds := holds_of_reachable h hpool
  cases event with
  | start request => exact fun _ _ _ _ => ⟨trivial, trivial⟩
  | step i choice => exact fun _ _ _ hruns => hholds.known sound hruns
  | stop i => trivial
  | outside change => trivial

theorem keeping_of_reachable (h : Opening rows₀) (hpool : Reachable rows₀ cfg clock pool) :
    (keeping rows₀).Holds service pool := by
  refine (hpool.invariant (P := fun pool => Reachable rows₀ cfg clock pool ∧
    (keeping rows₀).Holds service pool) ?_ ⟨.refl _, ?_⟩).2
  · rintro middle event final ⟨hreachable, hmiddle⟩ _ hnext
    exact ⟨.tail event hreachable trivial hnext, Discipline.holds_next keeping_sound hmiddle
      (permitted_of_reachable h hreachable event) hnext⟩
  · refine Discipline.holds_initial ⟨saga_start h cfg clock, ⟨?_, ?_⟩⟩ fun _ => trivial
    · intro b booking hbooking
      cases hbooking
    · intro b booking hbooking
      cases hbooking

theorem kept_of_steps (h : Opening rows₀) (hfirst : Reachable rows₀ cfg clock first)
    (hsteps : service.Steps Service.anyStep first final) : Kept first.shared final.shared := by
  have hallowed : service.Steps (keeping rows₀).Allowed first final := by
    induction hsteps with
    | refl => exact .refl _
    | tail event hbefore _ hnext ih =>
        exact .tail event ih (permitted_of_reachable h (hfirst.trans hbefore) event) hnext
  exact Discipline.transition_steps keeping_sound Kept.refl (fun _ _ _ h h' => h.trans h')
    (fun _ _ _ _ _ hkept => hkept)
    (fun change _ _ hs houtside => keeping_sound.outside_rely change _ _ houtside hs
      (.cancelBooking .empty) 0)
    hallowed (keeping_of_reachable h hfirst)

/-- The reservation of a stored booking that has been returned. -/
theorem Saga.returned_booking (h : Saga rows₀ s) (hopening : Opening rows₀) {b : Uuid}
    {booking : Booking} (hbooking : s.bookings.lookup b = some booking) (hb : Returned b s) :
    returnsOf b s.ledger.journal = [⟨booking.flightID, b, booking.seatCount⟩] ∧
      ∀ id (r : Reservation), s.ledger.rows.lookup (.reservation id) = some r →
        r.bookingID = b → r.status ≠ .active := by
  obtain ⟨id, r, hr, rfl, hinactive⟩ := hb
  obtain ⟨id', r', hr', hb', hflight, hcount⟩ := h.booked r.bookingID booking hbooking
  obtain rfl := h.accounts.unique id id' r r' hr hr' hb'.symm
  obtain rfl := Option.some.inj (hr.symm.trans hr')
  refine ⟨?_, fun id' r' hr' hb' => ?_⟩
  · rw [h.returned hopening hr hinactive, hflight, hcount]
  · obtain rfl := h.accounts.unique id id' r r' hr hr' hb'.symm
    obtain rfl := Option.some.inj (hr.symm.trans hr')
    exact hinactive

/-- The life of a booking, from any reachable state on: it stays stored and only its
    status changes, once; its seats have been given back, once, when it is `CANCELLED`;
    and what the requests have been answered with stays true. -/
theorem booking_lifecycle (rows₀ : Rows) (hopening : Opening rows₀) (cfg : CBConfig)
    (clock : Int) (first final : BookingPool) (hfirst : Reachable rows₀ cfg clock first)
    (hsteps : service.Steps Service.anyStep first final) :
    (∀ b booking, first.shared.bookings.lookup b = some booking →
      ∃ booking', final.shared.bookings.lookup b = some booking' ∧
        BookingMoves booking booking') ∧
    (∀ b booking, final.shared.bookings.lookup b = some booking →
      booking.status = .cancelled →
        returnsOf b final.shared.ledger.journal = [⟨booking.flightID, b, booking.seatCount⟩] ∧
        ∀ id (r : Reservation), final.shared.ledger.rows.lookup (.reservation id) = some r →
          r.bookingID = b → r.status ≠ .active) ∧
    ∀ i request result, final.Answered i request result → told request result final.shared := by
  have hholds := keeping_of_reachable hopening (hfirst.trans hsteps)
  refine ⟨(kept_of_steps hopening hfirst hsteps).bookings, fun b booking hbooking hcancelled => ?_,
    hholds.answered⟩
  exact hholds.inv.1.returned_booking hopening hbooking
    (hholds.inv.2.returned b booking hbooking hcancelled)

/-- Request 1 cancels booking 7. -/
def cancelledEvents : List (Event Request Choice Outside) :=
  storedEvents ++ .start (.cancelBooking (.uuid 7)) ::
    [Choice.proceed, .proceed, .fate (.answered (calm 0)), .proceed, .proceed, .proceed].map
      (.step 1)

theorem booking_lifecycle_sample : ∃ pool, poolAfter cancelledEvents = some pool ∧
    returnsOf 7 pool.shared.ledger.journal = [⟨1, 7, 2⟩] ∧
    ∃ reply, pool.Answered 1 (.cancelBooking (.uuid 7)) (.ok reply) ∧
      told (.cancelBooking (.uuid 7)) (.ok reply) pool.shared := by
  have hrun : (poolAfter cancelledEvents).isSome := by decide
  have hbooking : ((poolAfter cancelledEvents).get hrun).shared.bookings.lookup 7 =
      some { sampleBooking with status := .cancelled } := by decide +revert
  have hanswered : ((poolAfter cancelledEvents).get hrun).Answered 1 (.cancelBooking (.uuid 7))
      (.ok ⟨200, toBookingResponse { sampleBooking with status := .cancelled }⟩) := rfl
  obtain ⟨_, hreturned, htold⟩ := booking_lifecycle _ sampleRows_opening ⟨5, 10⟩ 0 _ _
    (.refl _) (reachable_poolAfter (Option.some_get hrun).symm)
  exact ⟨_, (Option.some_get hrun).symm, (hreturned 7 _ hbooking rfl).1, _, hanswered,
    htold 1 _ _ hanswered⟩

end SoaHomework.BookingService
