import SoaHomework.BookingSaga

/-!
# The requests of the booking service

Each request is verified on its own against what the others leave alone: it
executes every step in a state in which the saga allows the step. So the saga
holds in every reachable state, and what a request has been answered with tells
what it has left behind.
-/

namespace SoaHomework.BookingService

open StatementProgram Grpc GrpcClient
open FlightService (Uuid IdText Rows Rpc Ledger Execution StatusChange Reservation Accounts
  SeatStep Reserving Releasing)

/-- No id of request `i` stands for a booking. -/
def Unbooked (i : Nat) (s : State) : Prop :=
  ∀ b, s.owner b = some i → s.bookings.lookup b = none

/-- A request that creates a booking and is answered with an error has stored
    none. -/
def answered (request : Request) (i : Nat) (result : Except HttpError HttpReply) (s : State) :
    Prop :=
  match request, result with
  | .createBooking _, .error _ => Unbooked i s
  | _, _ => True

def discipline (rows₀ : Rows) : Discipline Op HttpError HttpReply Request State where
  inv := Saga rows₀
  rely _ i s s' := Undisturbed i s s'
  guarantee request i s s' := (∀ j, i ≠ j → Undisturbed j s s') ∧
    (∀ b, s.owner b = some i → s'.owner b = some i) ∧
    ∀ b, (i, .releaseReservation b) ∈ s'.issued →
      (i, .releaseReservation b) ∈ s.issued ∨ Entitled request i b s'
  unused i s := (∀ b, s.owner b ≠ some i) ∧ ∀ rpc, (i, rpc) ∉ s.issued
  compatible _ _ := True
  permitted _ _ _ _ := True
  known := Ready
  answer := answered

variable {rows₀ : Rows} {request : Request} {i : Nat} {s s' : State}

theorem answered_undisturbed {result : Except HttpError HttpReply} (hrely : Undisturbed i s s')
    (h : answered request i result s) : answered request i result s' := by
  cases request with
  | cancelBooking id => trivial
  | createBooking body =>
      cases result with
      | ok reply => trivial
      | error error =>
          intro b hb
          have howner := (hrely.owner b).mp hb
          exact (hrely.booking b howner).mpr (h b howner)

theorem Executed.entitled {op : Op} {answer : Res op} (h : Executed i s op answer s')
    (hready : Ready request i op s) (b : Uuid)
    (hb : (i, .releaseReservation b) ∈ s'.issued) :
    (i, .releaseReservation b) ∈ s.issued ∨ Entitled request i b s' := by
  have hissue : ∀ {rpc : Rpc}, Ready request i (.attempt rpc) s →
      (i, .releaseReservation b) ∈ (i, rpc) :: s.issued →
      (i, .releaseReservation b) ∈ s.issued ∨ Entitled request i b s := by
    intro rpc hready hmem
    rcases List.mem_cons.mp hmem with heq | hold
    · obtain ⟨_, rfl⟩ := Prod.mk.inj heq
      exact Or.inr hready.2.2
    · exact Or.inl hold
  have hentitled : s'.owner = s.owner → Entitled request i b s → Entitled request i b s' := by
    intro howner h
    cases request with
    | createBooking body => exact (congrFun howner b).trans h
    | cancelBooking id => trivial
  cases h with
  | executed => exact (hissue hready hb).imp_right (hentitled rfl)
  | unanswered => exact (hissue hready hb).imp_right (hentitled rfl)
  | _ => exact Or.inl hb

/-- An id keeps its owner. -/
theorem Executed.owned {op : Op} {answer : Res op} (h : Executed i s op answer s') (b : Uuid)
    (hb : s.owner b = some i) : s'.owner b = some i := by
  cases h with
  | @minted id hnew =>
      have hne : b ≠ id := by
        rintro rfl
        rw [hnew] at hb
        cases hb
      exact (Function.update_of_ne hne _ _).trans hb
  | _ => exact hb

/-! ## The rules of one request -/

/-- A step that the saga allows. -/
theorem triple_op {op : Op} {pre : State → Prop} (middle : Res op → State → Prop)
    {ε β : Type} {next : Res op → Program Op Res ε β} {post : Except ε β → State → Prop}
    (hstable : (discipline rows₀).Stable request i pre)
    (hready : ∀ s, Saga rows₀ s → pre s → Ready request i op s)
    (hexec : ∀ s answer s', Saga rows₀ s → pre s → Saga rows₀ s' →
      Executed i s op answer s' → middle answer s')
    (hnext : ∀ answer, (discipline rows₀).Triple service request i (middle answer)
      (next answer) post) :
    (discipline rows₀).Triple service request i pre (.step op next) post := by
  refine Discipline.Triple.step middle hstable (fun s hs hpre => ?_) hnext
  have hop := hready s hs hpre
  refine ⟨hop, fun _ choice answer s' hrun => ?_⟩
  have hexecuted := executed_of_execute hrun
  have hs' := hexecuted.saga hs hop
  exact ⟨hs', ⟨fun j hij => hexecuted.undisturbed hs hop hij, hexecuted.owned,
      hexecuted.entitled hop⟩,
    hexec s answer s' hs hpre hs' hexecuted⟩

/-- An operation of the breaker changes nothing that a request relies on. -/
theorem triple_breaker {op : Op} (hop : op = .allow ∨ op = .onSuccess ∨ ∃ err, op = .onFailure err)
    {pre : State → Prop} {ε : Type} (hstable : (discipline rows₀).Stable request i pre) :
    (discipline rows₀).Triple service request i pre
      (Program.perform op : Program Op Res ε (Res op)) fun result s =>
        ∃ answer, result = .ok answer ∧ pre s := by
  refine triple_op (fun _ => pre) hstable ?_ ?_ fun answer => Discipline.Triple.ret fun s _ h =>
    ⟨answer, rfl, h⟩
  · intro s _ _
    rcases hop with rfl | rfl | ⟨err, rfl⟩ <;> trivial
  · intro s answer s' _ hpre hs' hexecuted
    refine hstable s s' hs' ?_ hpre
    rcases hop with rfl | rfl | ⟨err, rfl⟩
    · cases hexecuted
      exact .of_eq rfl rfl (fun _ => Iff.rfl) fun _ h => h
    · cases hexecuted
      exact .of_eq rfl rfl (fun _ => Iff.rfl) fun _ h => h
    · cases hexecuted
      exact .of_eq rfl rfl (fun _ => Iff.rfl) fun _ h => h

/-- A call whose attempts start from `pre` and leave `tried`. -/
theorem triple_call {rpc : Rpc} {pre : State → Prop}
    (tried : Except CallError rpc.Reply → State → Prop)
    (hstable : (discipline rows₀).Stable request i pre)
    (htried : ∀ result, (discipline rows₀).Stable request i (tried result))
    (hready : ∀ s, Saga rows₀ s → pre s → Ready request i (.attempt rpc) s)
    (hexec : ∀ s answer s', Saga rows₀ s → pre s → Saga rows₀ s' →
      Executed i s (.attempt rpc) answer s' → tried answer s')
    (hretry : ∀ err s, tried (.error err) s → pre s)
    (hopen : ∀ s, pre s → tried (.error circuitOpen) s) :
    (discipline rows₀).Triple service request i pre (call rpc) tried := by
  refine triple_callWithRetry pre tried ?_ ?_ (fun err s _ _ h => hretry err s h)
    (fun resp => ?_) (fun err => ?_)
  · refine (triple_breaker (Or.inl rfl) hstable).mono (fun _ _ h => h) ?_
    rintro _ s _ ⟨answer, rfl, hpre⟩
    cases answer with
    | true => exact hpre
    | false => exact hopen s hpre
  · refine triple_op tried hstable hready hexec fun answer => ?_
    cases answer with
    | ok resp => exact Discipline.Triple.ret fun _ _ h => h
    | error err => exact Discipline.Triple.fail fun _ _ h => h
  · refine (triple_breaker (Or.inr (Or.inl rfl)) (htried (.ok resp))).mono (fun _ _ h => h) ?_
    rintro _ s _ ⟨answer, rfl, h⟩
    exact h
  · refine (triple_breaker (Or.inr (Or.inr ⟨err, rfl⟩)) (htried (.error err))).mono
      (fun _ _ h => h) ?_
    rintro _ s _ ⟨answer, rfl, h⟩
    exact h

/-- A call whose error is written as the answer. -/
theorem triple_callOrWrite {rpc : Rpc} {pre : State → Prop}
    {tried : Except CallError rpc.Reply → State → Prop}
    {post : Except HttpError rpc.Reply → State → Prop}
    (h : (discipline rows₀).Triple service request i pre (call rpc) tried)
    (hok : ∀ resp s, tried (.ok resp) s → post (.ok resp) s)
    (herror : ∀ err s, tried (.error err) s → post (.error (writeGrpcError err)) s) :
    (discipline rows₀).Triple service request i pre (callOrWrite rpc) post := by
  refine Discipline.Triple.attempt_bind tried h fun outcome => ?_
  cases outcome with
  | ok resp => exact Discipline.Triple.ret fun s _ => hok resp s
  | error err => exact Discipline.Triple.fail fun s _ => herror err s

/-! ## CreateBooking -/

/-- The request has not made an id yet. -/
def Unborn (i : Nat) (s : State) : Prop := ∀ b, s.owner b ≠ some i

/-- The request has made the id `b`, for which there is no booking. -/
structure Minted (i : Nat) (b : Uuid) (s : State) : Prop where
  owner : ∀ b', s.owner b' = some i ↔ b' = b
  unbooked : s.bookings.lookup b = none

/-- The request reserves seats for `b`, always the same, and releases none. -/
structure Reserves (i : Nat) (f b : Uuid) (n : Int) (s : State) : Prop extends Minted i b s where
  same : ∀ f' n', (i, .reserveSeats f' b n') ∈ s.issued → f' = f ∧ n' = n
  unreleased : (i, .releaseReservation b) ∉ s.issued

theorem stable_unborn : (discipline rows₀).Stable request i (Unborn i) :=
  fun _ _ _ hrely h b hb => h b ((hrely.owner b).mp hb)

theorem Minted.undisturbed {b : Uuid} (h : Minted i b s) (hrely : Undisturbed i s s') :
    Minted i b s' :=
  ⟨fun b' => (hrely.owner b').trans (h.owner b'),
    (hrely.booking b ((h.owner b).mpr rfl)).mpr h.unbooked⟩

theorem Reserves.undisturbed {f b : Uuid} {n : Int} (h : Reserves i f b n s)
    (hrely : Undisturbed i s s') : Reserves i f b n s' :=
  ⟨h.toMinted.undisturbed hrely,
    fun f' n' hissued => h.same f' n' ((hrely.issued _).mp hissued),
    fun hissued => h.unreleased ((hrely.issued _).mp hissued)⟩

theorem Minted.unbooked_of {b : Uuid} (h : Minted i b s) : Unbooked i s := by
  intro b' hb'
  rw [(h.owner b').mp hb']
  exact h.unbooked

/-- What an attempt leaves of what its request relies on. -/
theorem Executed.attempt {rpc : Rpc} {answer : Except CallError rpc.Reply}
    (h : Executed i s (.attempt rpc) answer s') (hs : Saga rows₀ s) :
    s'.owner = s.owner ∧ s'.bookings = s.bookings ∧ s'.issued = (i, rpc) :: s.issued ∧
      ∀ b, Reserved s b → Reserved s' b := by
  cases h with
  | executed hrun =>
      have hstep := FlightService.seatStep_of_run hs.accounts hrun
      exact ⟨rfl, rfl, rfl, fun b hb => reserved_of_kept hstep rfl hb⟩
  | unanswered => exact ⟨rfl, rfl, rfl, fun b hb => hb⟩

theorem Minted.of_eq {b : Uuid} (h : Minted i b s) (howner : s'.owner = s.owner)
    (hbookings : s'.bookings = s.bookings) : Minted i b s' :=
  ⟨by rw [howner]; exact h.owner, by rw [hbookings]; exact h.unbooked⟩

theorem triple_getFlight (f : Uuid) :
    (discipline rows₀).Triple service request i (Unborn i) (callOrWrite (.getFlight f))
      fun _ => Unborn i := by
  refine triple_callOrWrite (triple_call (fun _ => Unborn i) stable_unborn (fun _ => stable_unborn)
    (fun _ _ _ => trivial) ?_ (fun _ _ h => h) (fun _ h => h)) (fun _ _ h => h) (fun _ _ h => h)
  intro s answer s' hs hunborn _ hexecuted b
  rw [(hexecuted.attempt hs).1]
  exact hunborn b

/-- The answer tells that there is a reservation. -/
def tellsReserved {α : Type} : Except CallError α → Bool
  | .ok _ => true
  | .error err => isAlreadyExists err

theorem transport_tells {α : Type} (err : TransportError) :
    tellsReserved (.error err.val : Except CallError α) = false := by
  obtain ⟨err, hlibrary⟩ := err
  cases err with
  | other => rfl
  | status st =>
      have hcode : st.code ≠ .alreadyExists := by
        rintro heq
        simp [CallError.isOfLibrary, heq, Code.isOfLibrary] at hlibrary
      simpa [tellsReserved, isAlreadyExists] using hcode

/-- An attempt of `ReserveSeats` that is answered with a reservation, or that
    there is one already, leaves a reservation. -/
theorem Executed.reserved {f b : Uuid} {n : Int} {answer : Except CallError Reservation}
    (h : Executed i s (.attempt (.reserveSeats f b n)) answer s') (hs : Saga rows₀ s)
    (htells : tellsReserved answer = true) : Reserved s' b := by
  cases h with
  | @executed _ _ how result ledger hrun hanswer =>
      rcases hanswer with rfl | ⟨err, rfl⟩
      · cases FlightService.reserving_of_run hs.accounts hrun with
        | @granted id row =>
            exact ⟨id, ⟨f, b, n, .active⟩,
              (FlightService.lookup_reservation_commit id).trans (if_pos rfl), rfl⟩
        | existing hr hbooking => exact ⟨_, _, hr, hbooking⟩
        | refused hcode =>
            simp [tellsReserved, Except.mapError, isAlreadyExists, hcode] at htells
      · rw [transport_tells] at htells
        cases htells
  | unanswered err =>
      rw [transport_tells] at htells
      cases htells

theorem triple_reserve (f b : Uuid) (n : Int) :
    (discipline rows₀).Triple service request i (Reserves i f b n) (reserve f b n)
      fun result s => match result with
        | .ok _ => Reserves i f b n s ∧ Reserved s b
        | .error _ => Unbooked i s := by
  have hcall : (discipline rows₀).Triple service request i (Reserves i f b n)
      (call (.reserveSeats f b n)) fun result s =>
        Reserves i f b n s ∧ (tellsReserved result = true → Reserved s b) := by
    refine triple_call _ (fun s s' _ hrely h => h.undisturbed hrely)
      (fun result s s' _ hrely h =>
        ⟨h.1.undisturbed hrely, fun htells => hrely.reserved b (h.2 htells)⟩)
      ?_ ?_ (fun _ _ h => h.1) fun s h => ⟨h, fun htells => by cases htells⟩
    · exact fun s hs h => ⟨(h.owner b).mpr rfl, h.same⟩
    · intro s answer s' hs h hs' hexecuted
      obtain ⟨howner, hbookings, hissued, _⟩ := hexecuted.attempt hs
      refine ⟨⟨h.toMinted.of_eq howner hbookings, ?_, ?_⟩, hexecuted.reserved hs⟩
      · intro f' n' hmem
        rw [hissued] at hmem
        rcases List.mem_cons.mp hmem with heq | hold
        · cases heq
          exact ⟨rfl, rfl⟩
        · exact h.same f' n' hold
      · rw [hissued]
        simp [h.unreleased]
  refine Discipline.Triple.attempt_bind _ hcall fun outcome => ?_
  cases outcome with
  | ok resp => exact Discipline.Triple.ret fun s _ h => ⟨h.1, h.2 rfl⟩
  | error err =>
      intro s hs h
      simp only [Program.raiseIf]
      cases hexists : isAlreadyExists err with
      | true => exact ⟨h.1, h.2 hexists⟩
      | false => exact h.1.unbooked_of

theorem triple_newUuid (f : Uuid) (n : Int) :
    (discipline rows₀).Triple service request i (Unborn i)
      (Program.perform Op.newUuid : Handler Uuid) fun result s =>
        ∃ b, result = .ok b ∧ Reserves i f b n s := by
  refine triple_op (fun b => Reserves i f b n) stable_unborn (fun _ _ _ => trivial) ?_
    fun b => Discipline.Triple.ret fun s _ h => ⟨b, rfl, h⟩
  intro s b s' hs hunborn _ hexecuted
  cases hexecuted with
  | minted hnew =>
      refine ⟨⟨fun b' => ?_, ?_⟩, fun f' n' hissued => ?_, fun hissued => ?_⟩
      · by_cases hb : b' = b
        · subst hb
          simp
        · simp [hb, hunborn b']
      · cases hbooking : s.bookings.lookup b with
        | none => rfl
        | some booking =>
            obtain ⟨id, r, hr, hb, _⟩ := hs.booked b booking hbooking
            exact absurd ⟨id, r, hr, hb⟩ (hs.unknown hnew)
      · have howner := hs.owner i f' b n' hissued
        rw [hnew] at howner
        cases howner
      · exact absurd (hs.releases i b hissued).1 (hs.unknown hnew)

/-- The compensation of a booking that could not be stored. -/
theorem triple_compensate {b : Uuid} :
    (discipline rows₀).Triple service request i
      (fun s => Minted i b s ∧ Reserved s b)
      (call (.releaseReservation b)) fun _ s => Minted i b s ∧ Reserved s b := by
  have hstable : (discipline rows₀).Stable request i fun s => Minted i b s ∧ Reserved s b :=
    fun s s' _ hrely h => ⟨h.1.undisturbed hrely, hrely.reserved b h.2⟩
  refine triple_call _ hstable (fun _ => hstable) ?_ ?_ (fun _ _ h => h) (fun _ h => h)
  · rintro s _ ⟨hminted, hreserved⟩
    have howner := (hminted.owner b).mpr rfl
    refine ⟨hreserved, ⟨fun _ => hminted.unbooked, fun _ => howner⟩, ?_⟩
    cases request with
    | createBooking body => exact howner
    | cancelBooking id => trivial
  · rintro s answer s' hs ⟨hminted, hreserved⟩ _ hexecuted
    obtain ⟨howner, hbookings, _, hkept⟩ := hexecuted.attempt hs
    exact ⟨hminted.of_eq howner hbookings, hkept b hreserved⟩

theorem triple_createBooking (body : Option CreateBookingRequest) :
    (discipline rows₀).Triple service (.createBooking body) i (Unborn i) (createBooking body)
      (answered (.createBooking body) i) := by
  have hunborn : ∀ (s : State) (error : HttpError), Unborn i s →
      answered (.createBooking body) i (.error error) s :=
    fun s error h b hb => absurd hb (h b)
  cases body with
  | none => exact Discipline.Triple.fail fun s _ h => hunborn s _ h
  | some req =>
      refine Discipline.Triple.raiseIf (fun _ s _ h => hunborn s _ h) fun _ => ?_
      cases hflight : req.flightID with
      | empty => exact Discipline.Triple.fail fun s _ h => hunborn s _ h
      | malformed => exact Discipline.Triple.fail fun s _ h => hunborn s _ h
      | uuid f =>
          simp only [readUuid, Program.ret_bind]
          refine Discipline.Triple.bind (fun _ => Unborn i) (triple_getFlight f) (fun flight => ?_)
            fun error s _ h => hunborn s error h
          refine Discipline.Triple.bind _ (triple_newUuid f req.seatCount) (fun b => ?_) ?_
          swap
          · rintro error s _ ⟨b, heq, _⟩
            cases heq
          refine Discipline.Triple.weaken (Reserves i f b req.seatCount) ?_ ?_
          swap
          · rintro s _ ⟨b', heq, h⟩
            cases heq
            exact h
          refine Discipline.Triple.bind _ (triple_reserve f b req.seatCount) (fun _ => ?_)
            fun error s _ h => h
          refine triple_op (fun (outcome : Except StoreError Booking) s => match outcome with
            | .ok _ => True
            | .error _ => Minted i b s ∧ Reserved s b) ?_ ?_ ?_ fun outcome => ?_
          · exact fun s s' _ hrely h => ⟨h.1.undisturbed hrely, hrely.reserved b h.2⟩
          · rintro s hs ⟨hreserves, id, r, hr, hb⟩
            refine ⟨(hreserves.owner b).mpr rfl, hreserves.unreleased, id, r, hr, hb, ?_⟩
            obtain ⟨j, hj⟩ := hs.requested id r hr
            have hissued := hs.effective _ hj
            rw [hb] at hissued
            obtain rfl := Option.some.inj
              ((hs.owner j _ _ _ hissued).symm.trans ((hreserves.owner b).mpr rfl))
            exact hreserves.same _ _ hissued
          · rintro s outcome s' _ ⟨hreserves, hreserved⟩ _ hexecuted
            cases hexecuted with
            | inserted => trivial
            | refused => exact ⟨hreserves.toMinted, hreserved⟩
          · cases outcome with
            | ok created => exact Discipline.Triple.ret fun _ _ _ => trivial
            | error error =>
                refine Discipline.Triple.attempt_bind _ triple_compensate fun _ => ?_
                exact Discipline.Triple.fail fun s _ h => h.1.unbooked_of

/-! ## CancelBooking -/

/-- There is a booking `b`, which another request has made. -/
def Foreign (i : Nat) (b : Uuid) (s : State) : Prop :=
  Unborn i s ∧ s.bookings.lookup b ≠ none

theorem stable_foreign {b : Uuid} : (discipline rows₀).Stable request i (Foreign i b) :=
  fun s s' hs' hrely h => ⟨stable_unborn s s' hs' hrely h.1,
    fun hnone => h.2 (hrely.stored b hnone)⟩

theorem triple_readBooking (b : Uuid) :
    (discipline rows₀).Triple service request i (Unborn i) (readBooking b) fun result s =>
      ∀ booking, result = .ok booking → Foreign i b s := by
  refine triple_op (fun (outcome : Except StoreError Booking) s =>
    ∀ booking, outcome = .ok booking → Foreign i b s) stable_unborn (fun _ _ _ => trivial) ?_
    fun outcome => ?_
  · intro s outcome s' _ hunborn _ hexecuted booking heq
    cases hexecuted with
    | found hbooking => exact ⟨hunborn, by rw [hbooking]; simp⟩
    | missed => cases heq
  · cases outcome with
    | ok booking => exact Discipline.Triple.ret fun s _ h _ _ => h booking rfl
    | error error =>
        cases error with
        | notFound => exact Discipline.Triple.fail fun s _ _ _ heq => by cases heq
        | failure => exact Discipline.Triple.fail fun s _ _ _ heq => by cases heq

theorem triple_release (b : Uuid) :
    (discipline rows₀).Triple service (.cancelBooking (.uuid b)) i (Foreign i b)
      (callOrWrite (.releaseReservation b)) fun _ => Foreign i b := by
  refine triple_callOrWrite (triple_call (fun _ => Foreign i b) stable_foreign
    (fun _ => stable_foreign) ?_ ?_ (fun _ _ h => h) fun _ h => h) (fun _ _ h => h)
    fun _ _ h => h
  · rintro s hs ⟨hunborn, hstored⟩
    obtain ⟨booking, hbooking⟩ := Option.ne_none_iff_exists'.mp hstored
    obtain ⟨id, r, hr, hb, _⟩ := hs.booked b booking hbooking
    exact ⟨⟨id, r, hr, hb⟩, ⟨fun howner => absurd howner (hunborn b),
      fun hnone => absurd hnone hstored⟩, trivial⟩
  · rintro s answer s' hs ⟨hunborn, hstored⟩ _ hexecuted
    obtain ⟨howner, hbookings, _, _⟩ := hexecuted.attempt hs
    refine ⟨fun b' => ?_, ?_⟩
    · rw [howner]
      exact hunborn b'
    · rw [hbookings]
      exact hstored

theorem triple_storeCancelled (b : Uuid) :
    (discipline rows₀).Triple service request i (Foreign i b) (storeCancelled b)
      fun _ _ => True := by
  refine triple_op (fun _ _ => True) stable_foreign (fun _ _ _ => trivial)
    (fun _ _ _ _ _ _ _ => trivial) fun outcome => ?_
  cases outcome with
  | ok updated => exact Discipline.Triple.ret fun _ _ _ => trivial
  | error error => exact Discipline.Triple.fail fun _ _ _ => trivial

theorem triple_cancelBooking (id : IdText) :
    (discipline rows₀).Triple service (.cancelBooking id) i (Unborn i) (cancelBooking id)
      (answered (.cancelBooking id) i) := by
  cases id with
  | empty => exact Discipline.Triple.fail fun _ _ _ => trivial
  | malformed => exact Discipline.Triple.fail fun _ _ _ => trivial
  | uuid b =>
      simp only [cancelBooking, readUuid, Program.ret_bind]
      refine Discipline.Triple.bind _ (triple_readBooking b) (fun booking => ?_)
        fun _ _ _ _ => trivial
      refine Discipline.Triple.weaken (Foreign i b) ?_ fun s _ h => h booking rfl
      refine Discipline.Triple.raiseIf (fun _ _ _ _ => trivial) fun _ => ?_
      refine Discipline.Triple.bind _ (triple_release b) (fun _ => ?_) fun _ _ _ _ => trivial
      exact (triple_storeCancelled b).mono (fun _ _ h => h) fun _ _ _ _ => trivial

/-! ## Every run -/

theorem outside_history {change : Outside} (h : outside change s = some s') :
    s'.owner = s.owner ∧ s'.issued = s.issued := by
  cases change with
  | elapse time =>
      obtain rfl := Option.some.inj h
      exact ⟨rfl, rfl⟩
  | drop k =>
      obtain rfl := Option.some.inj h
      exact ⟨rfl, rfl⟩
  | deliver k how =>
      simp only [outside] at h
      split at h
      · cases h
      · simp only [State.deliver, Option.map_eq_some_iff] at h
        obtain ⟨_, ⟨_, _, rfl⟩, rfl⟩ := h
        exact ⟨rfl, rfl⟩
  | changeStatus change =>
      simp only [outside, Option.map_eq_some_iff] at h
      obtain ⟨_, _, rfl⟩ := h
      exact ⟨rfl, rfl⟩

theorem sound : (discipline rows₀).Sound service where
  rely_refl _ i s := .refl i s
  rely_trans _ _ _ _ _ h h' := h.trans h'
  guarantee_rely _ _ _ j _ _ hij _ _ h := h.1 j hij
  guarantee_unused _ _ j _ _ hij h hunused :=
    ⟨fun b hb => hunused.1 b (((h.1 j hij).owner b).mp hb),
      fun rpc hrpc => hunused.2 rpc (((h.1 j hij).issued rpc).mp hrpc)⟩
  guarantee_answer _ request' _ j result _ _ hij _ h hanswer :=
    answered_undisturbed (h.1 j hij) hanswer
  close_inv _ _ h := h
  close_guarantee _ _ s _ := ⟨fun j _ => .refl j s, fun _ h => h, fun _ h => Or.inl h⟩
  close_answer _ _ _ _ _ h := h
  answer_stable _ _ _ _ _ _ hrely h := answered_undisturbed hrely h
  outside_inv _ _ _ h hs := (undisturbed_outside h hs).1
  outside_rely _ _ _ h hs _ i := (undisturbed_outside h hs).2 i
  outside_unused _ _ _ h i hunused := by
    obtain ⟨howner, hissued⟩ := outside_history h
    exact ⟨fun b => by rw [howner]; exact hunused.1 b,
      fun rpc => by rw [hissued]; exact hunused.2 rpc⟩
  handler_safe request i := by
    refine Discipline.Triple.weaken (Unborn i) ?_ fun s _ h => h.1
    cases request with
    | createBooking body => exact triple_createBooking body
    | cancelBooking id => exact triple_cancelBooking id

/-- The flights at the start: those of the migrations, without a reservation. -/
structure Opening (rows : Rows) : Prop where
  schema : FlightService.Schema rows
  unreserved : ∀ id, rows.lookup (.reservation id) = none

theorem saga_start (h : Opening rows₀) (cfg : CBConfig) (clock : Int) :
    Saga rows₀ (State.start rows₀ cfg clock) := by
  have hnone : ∀ id (r : Reservation), rows₀.lookup (.reservation id) ≠ some r := by
    intro id r hr
    rw [h.unreserved id] at hr
    cases hr
  refine ⟨FlightService.accounts_initial h.schema, ?_, ?_, ?_, ?_, ?_, ?_, ?_, ?_, ?_, ?_⟩
  · exact fun _ h => h
  · exact fun _ h => h
  · exact fun _ _ _ _ h => absurd h List.not_mem_nil
  · exact fun _ _ _ _ _ _ h => absurd h List.not_mem_nil
  · exact fun id r hr => absurd hr (hnone id r)
  · exact fun _ _ _ _ h => absurd h List.not_mem_nil
  · intro b booking hbooking
    cases hbooking
  · exact fun _ _ h => absurd h List.not_mem_nil
  · exact fun _ _ h => absurd h List.not_mem_nil
  · exact fun id r hr => absurd hr (hnone id r)

/-- The requests and the saga in a reachable state. -/
abbrev Reachable (rows₀ : Rows) (cfg : CBConfig) (clock : Int) (pool : BookingPool) : Prop :=
  service.Steps Service.anyStep (Pool.initial (State.start rows₀ cfg clock)) pool

variable {cfg : CBConfig} {clock : Int} {pool : BookingPool}

theorem allowed_of_any (pool : BookingPool) (event : Event Request Choice Outside) :
    (discipline rows₀).Allowed pool event := by
  cases event with
  | start request => exact fun _ _ _ _ => ⟨trivial, trivial⟩
  | step i choice => exact fun _ _ _ _ => trivial
  | stop i => trivial
  | outside change => trivial

theorem holds_of_reachable (h : Opening rows₀) (hpool : Reachable rows₀ cfg clock pool) :
    (discipline rows₀).Holds service pool := by
  refine Discipline.holds_steps sound (hpool.mono fun pool event _ => allowed_of_any pool event)
    (Discipline.holds_initial (saga_start h cfg clock) fun i => ⟨fun b hb => ?_, fun rpc => ?_⟩)
  · cases hb
  · exact List.not_mem_nil

/-- The request that made an attempt to release a reservation. -/
def Attributed (pool : BookingPool) : Prop :=
  ∀ i b, (i, .releaseReservation b) ∈ pool.shared.issued →
    ∃ thread, pool.threads[i]? = some thread ∧ Entitled thread.request i b pool.shared

theorem entitled_of_owner {b : Uuid} (howner : s.owner b = some i → s'.owner b = some i)
    (h : Entitled request i b s) : Entitled request i b s' := by
  cases request with
  | createBooking body => exact howner h
  | cancelBooking id => trivial

/-- Request `i` goes on by a guaranteed step. -/
theorem attributed_update (hpool : Attributed pool) {status : Status Op Res HttpError HttpReply}
    {thread : Thread Op Res HttpError HttpReply Request} (hthread : pool.threads[i]? = some thread)
    (hstep : (discipline rows₀).guarantee thread.request i pool.shared s') :
    Attributed (pool.update i status s') := by
  intro j b hj
  by_cases hij : i = j
  · subst hij
    refine ⟨⟨thread.request, status⟩, Service.update_self hthread status s', ?_⟩
    rcases hstep.2.2 b hj with hold | hentitled
    · obtain ⟨thread', hthread', hentitled⟩ := hpool i b hold
      obtain rfl := Option.some.inj (hthread.symm.trans hthread')
      exact entitled_of_owner (hstep.2.1 b) hentitled
    · exact hentitled
  · obtain ⟨thread', hthread', hentitled⟩ := hpool j b (((hstep.1 j hij).issued _).mp hj)
    refine ⟨thread', (Service.update_other hij status s').trans hthread', ?_⟩
    exact entitled_of_owner ((hstep.1 j hij).owner b).mpr hentitled

theorem attributed_next {pool' : BookingPool} {event : Event Request Choice Outside}
    (hholds : (discipline rows₀).Holds service pool) (hpool : Attributed pool)
    (hnext : service.next pool event = some pool') : Attributed pool' := by
  cases Service.move_of_next hnext with
  | start request =>
      intro j b hj
      obtain ⟨thread, hthread, hentitled⟩ := hpool j b hj
      refine ⟨thread, ?_, hentitled⟩
      rw [List.getElem?_append_left (Service.lt_length_of_getElem hthread), hthread]
  | exec hthread hexec =>
      obtain ⟨_, hsteps⟩ := hholds.running _ _ _ hthread _ hholds.inv (sound.rely_refl _ _ _)
      obtain ⟨_, hguarantee, _⟩ := hsteps trivial _ _ _ hexec
      exact attributed_update hpool hthread hguarantee
  | @answer i _ request _ _ hthread _ =>
      exact attributed_update hpool hthread (sound.close_guarantee request i _ hholds.inv)
  | @stop i request _ hthread =>
      exact attributed_update hpool hthread (sound.close_guarantee request i _ hholds.inv)
  | outside hchange =>
      obtain ⟨howner, hissued⟩ := outside_history hchange
      intro j b hj
      obtain ⟨thread, hthread, hentitled⟩ := hpool j b (by rwa [hissued] at hj)
      exact ⟨thread, hthread, entitled_of_owner (fun h => by rw [howner]; exact h) hentitled⟩

theorem attributed_of_reachable (h : Opening rows₀) (hpool : Reachable rows₀ cfg clock pool) :
    Attributed pool := by
  have hboth : (discipline rows₀).Holds service pool ∧ Attributed pool := by
    refine hpool.invariant (P := fun pool => (discipline rows₀).Holds service pool ∧
      Attributed pool) ?_ ⟨holds_of_reachable h (.refl _), fun i b hi => absurd hi List.not_mem_nil⟩
    intro middle event final hmiddle _ hnext
    exact ⟨Discipline.holds_next sound hmiddle.1 (allowed_of_any middle event) hnext,
      attributed_next hmiddle.1 hmiddle.2 hnext⟩
  exact hboth.2

end SoaHomework.BookingService
