import SoaHomework.AtomicRequests
import SoaHomework.FlightLedger

/-!
# Transactions take effect at once

To its clients the flight store is a table that serves one request at a time. The
sequential store below says what reserving and releasing seats are for; whatever the
interleaving of the transactions' statements, and whichever of them fail or are
stopped, there is an order in which the sequential store gives the same answers and
has the same rows (`store_linearizable`), and it respects the order of requests that do
not overlap.
-/

namespace SoaHomework.FlightService

open StatementProgram Discipline

/-! ## The sequential store -/

/-- What is left open of a request that is served as a whole: the key of the row that is
    inserted, or that it is refused. -/
inductive ServeChoice where
  | proceed (generated : Uuid)
  /-- The reservation of the same booking is found in the insertion. -/
  | conflict
  | failure
deriving Inhabited

def takeSeats (flightID bookingID : Uuid) (seatCount : Int) (generated : Uuid) (rows : Rows) :
    Option (Except StoreError Reservation × Rows) :=
  match (rows.lookup (.flight flightID) : Option Flight) with
  | none => some (.error .notFound, rows)
  | some f =>
      if f.status ≠ .scheduled then some (.error .notFound, rows)
      else if f.availableSeats < seatCount then some (.error .noSeats, rows)
      else if (findReservation rows bookingID).isSome then some (.error .alreadyExists, rows)
      else if (rows.lookup (.reservation generated)).isSome then none
      else some (.ok ⟨flightID, bookingID, seatCount, .active⟩,
        (rows.insert (.flight flightID) (changeSeats (-seatCount) f)).insert
          (.reservation generated) ⟨flightID, bookingID, seatCount, .active⟩)

def returnSeats (bookingID : Uuid) (rows : Rows) : Except StoreError Reservation × Rows :=
  match findReservation rows bookingID with
  | none => (.error .notFound, rows)
  | some (id, r) =>
      if r.status ≠ .active then (.error .notFound, rows)
      else match (rows.lookup (.flight r.flightID) : Option Flight) with
        | none => (.error .notFound, rows)
        | some f => (.ok (markReleased r),
            (rows.insert (.flight r.flightID) (changeSeats r.seatCount f)).insert
              (.reservation id) (markReleased r))

def serve : Request → ServeChoice → Rows → Option (Except StoreError Reservation × Rows)
  | .reserveSeats flightID bookingID seatCount _, .proceed generated, rows =>
      takeSeats flightID bookingID seatCount generated rows
  | .reserveSeats _ bookingID _ _, .conflict, rows =>
      if (findReservation rows bookingID).isSome then
        some (.error (.db .uniqueViolation), rows)
      else none
  | .releaseReservation bookingID, .proceed _, rows => some (returnSeats bookingID rows)
  | .releaseReservation _, .conflict, _ => none
  | _, .failure, rows => some (.error (.db .failure), rows)

def setStatus (change : StatusChange) (rows : Rows) : Option Rows :=
  (rows.lookup (.flight change.flightID)).map fun f : Flight =>
    rows.insert (.flight change.flightID) { f with status := change.status }

/-- The store that serves one request at a time. -/
def sequentialStore : Sequential StoreError Reservation Request ServeChoice StatusChange Rows where
  serve := serve
  outside := setStatus

/-! ## Statements that decide -/

variable {i : Nat} {rows₀ rows : Rows} {request : Request} {s s' : State}

abbrev committedRows (s : State) : Rows := s.db.rows

/-- The request may end so, without an effect. -/
def Refuses (request : Request) (rows : Rows) (result : Except StoreError Reservation) : Prop :=
  ∃ choice, serve request choice rows = some (result, rows)

theorem refuses_failure : Refuses request rows (.error (.db .failure)) := by
  refine ⟨.failure, ?_⟩
  cases request <;> rfl

theorem findReservation_isSome {id : Uuid} {r : Reservation}
    (hr : rows.lookup (.reservation id) = some r) :
    (findReservation rows r.bookingID).isSome = true := by
  obtain ⟨id', r', hfound⟩ := findReservation_of_lookup hr
  rw [hfound, Option.isSome_some]

theorem findReservation_of_unique (htables : Tables rows) {id : Uuid} {r : Reservation}
    (hr : rows.lookup (.reservation id) = some r) :
    findReservation rows r.bookingID = some (id, r) := by
  obtain ⟨id', r', hfound⟩ := findReservation_of_lookup hr
  obtain ⟨hr', hbooking⟩ := findReservation_some hfound
  obtain rfl := htables.unique id' id r' r hr' hr hbooking
  rw [hfound, Option.some.inj (hr'.symm.trans hr)]

theorem findReservation_of_absent {b : Uuid} (h : RowStore.Absent bookingIndex rows b) :
    findReservation rows b = none := by
  rcases hfound : findReservation rows b with _ | ⟨id, r⟩
  · rfl
  · obtain ⟨hr, hbooking⟩ := findReservation_some hfound
    exact absurd (congrArg some hbooking) (h _ _ hr)

/-- The rest of a transaction, after a statement that is not its commit: it ends as the
    sequential store refuses it, or goes on. -/
inductive GoesOn (request : Request) (middle : State → Prop) :
    Program Statement Answer StoreError Reservation → State → Prop where
  | ends {program s} (result : Except StoreError Reservation)
      (houtcome : program.outcome? = some result)
      (hrefuses : Refuses request s.db.rows result) : GoesOn request middle program s
  | runs {program s} (hmiddle : middle s) : GoesOn request middle program s

/-- The same for the answer to the statement. -/
def AnswerGoesOn (request : Request) {statement : Statement}
    (middle : Result statement → State → Prop)
    (next : Result statement → Program Statement Answer StoreError Reservation) :
    Answer statement → State → Prop
  | .ok result, s => GoesOn request (middle result) (next result) s
  | .error error, s => Refuses request s.db.rows (.error (.db error))

/-- Only a commit changes the committed rows. -/
abbrev quietStatement (statement : Statement) : Prop := statement ≠ .commit

/-- A transaction does nothing before the statement that decides its outcome. -/
abbrev DecidesAll (rows₀ : Rows) (request : Request) (i : Nat)
    (program : Program Statement Answer StoreError Reservation) (s : State) : Prop :=
  (discipline rows₀).Decisive service sequentialStore committedRows quietStatement request i
    program s

/-- A statement other than the commit. -/
theorem decidesAll_query {statement : Statement} {pre : State → Prop}
    (middle : Result statement → State → Prop)
    {next : Result statement → Program Statement Answer StoreError Reservation}
    (hkept : KeptBy i pre) (hcommit : statement ≠ .commit)
    (hproceed : ∀ s generated answer s', (discipline rows₀).inv s → pre s →
      s'.db.rows = s.db.rows → proceed i generated s statement = some (answer, s') →
        AnswerGoesOn request middle next answer s')
    (hnext : ∀ result s, (discipline rows₀).inv s → middle result s →
      DecidesAll rows₀ request i (next result) s) (hpre : pre s) :
    DecidesAll rows₀ request i (query statement >>= next) s := by
  refine decisive_step (fun
      | .ok result, s => middle result s
      | .error _, _ => False)
    (fun s s' _ => hkept s s') ?_ ?_ hpre
  · intro s hinv hpre _ choice answer s' hexec
    have hrows := ((execute_frame hexec hinv.1).2 hcommit).1
    have hdecides : ∀ result, Refuses request s'.db.rows result →
        sequentialStore.Serves request result (committedRows s) (committedRows s') := by
      intro result hrefuses
      rw [committedRows, committedRows, ← hrows]
      exact hrefuses
    have hgoes : AnswerGoesOn request middle next answer s' := by
      cases choice with
      | failure =>
          simp only [service, execute, Option.some.injEq, Prod.mk.injEq] at hexec
          obtain ⟨rfl, rfl⟩ := hexec
          exact refuses_failure
      | proceed generated => exact hproceed s generated answer s' hinv hpre hrows hexec
    rcases answer with error | result
    · exact Or.inr ⟨_, hdecides _ hgoes, Program.decided_of_outcome rfl⟩
    · rcases hgoes with ⟨result', houtcome, hrefuses⟩ | ⟨hmiddle⟩
      · exact Or.inr ⟨result', hdecides _ hrefuses, Program.decided_of_outcome houtcome⟩
      · exact Or.inl ⟨hcommit, hmiddle⟩
  · rintro (error | result) s hinv hmiddle
    · exact hmiddle.elim
    · exact hnext result s hinv hmiddle

/-- The commit, of writes that the sequential store makes at once. -/
theorem decidesAll_commit {pre : State → Prop} {value : Reservation} (hkept : KeptBy i pre)
    (hserve : ∀ s, (discipline rows₀).inv s → pre s →
      ∃ choice, serve request choice s.db.rows = some (.ok value, s.db.view i)) (hpre : pre s) :
    DecidesAll rows₀ request i (query .commit >>= fun _ => .ret value) s := by
  refine decisive_step (fun _ _ => False) (fun s s' _ => hkept s s') ?_
    (fun _ _ _ hmiddle => hmiddle.elim) hpre
  intro s hinv hpre _ choice answer s' hexec
  refine Or.inr ?_
  cases choice with
  | failure =>
      simp only [service, execute, Option.some.injEq, Prod.mk.injEq] at hexec
      obtain ⟨rfl, rfl⟩ := hexec
      exact ⟨_, refuses_failure, Program.decided_of_outcome rfl⟩
  | proceed generated =>
      simp only [service, execute, proceed, Option.some.injEq, Prod.mk.injEq] at hexec
      obtain ⟨rfl, rfl⟩ := hexec
      exact ⟨_, hserve s hinv hpre, Program.decided_of_outcome rfl⟩

/-! ## The transactions -/

theorem decidesAll_reserveSeats {flightID bookingID : Uuid} {seatCount : Int}
    (hpositive : 0 < seatCount) (hidle : s.db.Idle i) :
    DecidesAll rows₀ (.reserveSeats flightID bookingID seatCount hpositive) i
      (Store.reserveSeats flightID bookingID seatCount) s := by
  refine decidesAll_query (fun result s => ∃ row : Flight,
      result = some (row.availableSeats, row.status) ∧ row.status = .scheduled ∧
        seatCount ≤ row.availableSeats ∧ FlightLocked i flightID row s)
    keptBy_idle (by simp) ?_ ?_ hidle
  · intro s generated answer s' _ hidle hrows hrun
    rcases proceed_selectFlightForUpdate hidle hrun with ⟨rfl, hnone⟩ | ⟨row, rfl, hlocked⟩
    · refine .ends _ rfl ⟨.proceed 0, ?_⟩
      rw [serve, takeSeats, hrows, hnone]
    · have hrow := hlocked.2.2
      by_cases hstatus : row.status = .scheduled
      · by_cases hseats : row.availableSeats < seatCount
        · refine .ends (.error .noSeats) ?_ ⟨.proceed 0, ?_⟩
          · simp [hstatus, hseats, Program.raiseIf, Program.outcome?]
          · simp only [serve, takeSeats, hrow, hstatus, hseats, ne_eq, not_true_eq_false,
              if_false, if_true]
        · exact .runs ⟨row, rfl, hstatus, Int.not_lt.mp hseats, hlocked⟩
      · refine .ends (.error .notFound) ?_ ⟨.proceed 0, ?_⟩
        · simp [hstatus, Program.raiseIf, Program.outcome?]
        · simp only [serve, takeSeats, hrow, hstatus, ne_eq, not_false_eq_true, if_true]
  rintro _ s _ ⟨row, rfl, hscheduled, havailable, hlocked⟩
  simp only [hscheduled, Int.not_lt.mpr havailable, Program.raiseIf, bne_self_eq_false,
    decide_false, Bool.false_eq_true, if_false, Program.ret_bind]
  have hserve : ∀ generated {s : State}, s.db.rows.lookup (.flight flightID) = some row →
      serve (.reserveSeats flightID bookingID seatCount hpositive) (.proceed generated) s.db.rows =
        if (findReservation s.db.rows bookingID).isSome then
          some (.error .alreadyExists, s.db.rows)
        else if (s.db.rows.lookup (.reservation generated)).isSome then none
        else some (.ok ⟨flightID, bookingID, seatCount, .active⟩,
          (s.db.rows.insert (.flight flightID) (changeSeats (-seatCount) row)).insert
            (.reservation generated) ⟨flightID, bookingID, seatCount, .active⟩) := by
    intro generated s hrow
    simp only [serve, takeSeats, hrow, hscheduled, ne_eq, not_true_eq_false, if_false,
      Int.not_lt.mpr havailable]
  refine decidesAll_query (fun existing s => existing = none ∧ FlightLocked i flightID row s)
    (keptBy_flightLocked flightID row) (by simp) ?_ ?_ hlocked
  · intro s generated answer s' _ hlocked hrows hrun
    simp only [proceed, Option.some.injEq, Prod.mk.injEq] at hrun
    obtain ⟨rfl, rfl⟩ := hrun
    have hview : s.db.view i = s.db.rows := by
      rw [RowStore.view, hlocked.1, AList.empty_union]
    rw [hview]
    cases hfound : findReservation s.db.rows bookingID with
    | none => exact .runs ⟨rfl, hlocked⟩
    | some found =>
        refine .ends _ rfl ⟨.proceed 0, ?_⟩
        rw [hserve 0 hlocked.2.2, hfound, Option.isSome_some, if_pos rfl]
  rintro _ s _ ⟨rfl, hlocked⟩
  refine decidesAll_query (fun _ s => SeatsTaken i flightID seatCount row s)
    (keptBy_flightLocked flightID row) (by simp) ?_ ?_ hlocked
  · intro s generated answer s' hinv hlocked hrows hrun
    obtain ⟨hpending, _, hrow⟩ := hlocked
    rcases proceed_changeSeats hpending hrow hrun with ⟨_, hchecks⟩ | ⟨rfl, hwritten⟩
    · rw [hinv.2.checks_taken hrow hpositive havailable] at hchecks
      cases hchecks
    · exact .runs ⟨hwritten.pending, hwritten.lock, hwritten.rows ▸ hrow⟩
  intro _ s _ htaken
  refine decidesAll_query (fun (r : Reservation) s =>
      r = ⟨flightID, bookingID, seatCount, .active⟩ ∧
        SeatsReserved i flightID bookingID seatCount row s)
    (keptBy_seatsTaken flightID seatCount row) (by simp) ?_ ?_ htaken
  · intro s generated answer s' hinv htaken hrows hrun
    rcases proceed_insertReservation hinv.1 htaken hpositive hrun with
      ⟨rfl, id, r, hr, rfl⟩ | ⟨rfl, hreserved⟩
    · refine ⟨.conflict, ?_⟩
      rw [serve, hrows, if_pos (findReservation_isSome hr)]
    · exact .runs ⟨rfl, hreserved⟩
  rintro _ s _ ⟨rfl, hreserved⟩
  refine decidesAll_commit (keptBy_seatsReserved flightID bookingID seatCount row) ?_ hreserved
  intro s _ hreserved
  obtain ⟨id, hnone, hview, _⟩ := hreserved.commit
  obtain ⟨_, _, _, _, _, hrow, _, habsent⟩ := hreserved
  refine ⟨.proceed id, ?_⟩
  rw [hserve id hrow, findReservation_of_absent habsent, hnone, hview]
  rfl

theorem decidesAll_releaseReservation {bookingID : Uuid} (hidle : s.db.Idle i) :
    DecidesAll rows₀ (.releaseReservation bookingID) i (Store.releaseReservation bookingID) s := by
  refine decidesAll_query (fun result s => ∃ id r, result = some (id, r) ∧
      r.bookingID = bookingID ∧ r.status = .active ∧ ReservationLocked i id r s)
    keptBy_idle (by simp) ?_ ?_ hidle
  · intro s generated answer s' _ hidle hrows hrun
    rcases proceed_selectReservationForUpdate hidle hrun with
      ⟨rfl, hnone⟩ | ⟨id, r, rfl, hfound, hlocked⟩
    · refine .ends _ rfl ⟨.proceed 0, ?_⟩
      rw [serve, returnSeats, hrows, hnone]
    · by_cases hstatus : r.status = .active
      · exact .runs ⟨id, r, rfl, (findReservation_some hfound).2, hstatus, hlocked⟩
      · refine .ends (.error .notFound) ?_ ⟨.proceed 0, ?_⟩
        · simp [hstatus, Program.raiseIf, Program.outcome?]
        · simp only [serve, returnSeats, hrows, hfound, hstatus, ne_eq, not_false_eq_true, if_true]
  rintro _ s _ ⟨id, r, rfl, rfl, hactive, hlocked⟩
  simp only [hactive, Program.raiseIf, bne_self_eq_false, Bool.false_eq_true, if_false,
    Program.ret_bind]
  refine decidesAll_query (fun _ s => ∃ row, SeatsReturned i id r row s)
    (keptBy_reservationLocked id r) (by simp) ?_ ?_ hlocked
  · intro s generated answer s' hinv hlocked hrows hrun
    obtain ⟨hpending, hlock, hr⟩ := hlocked
    obtain ⟨row, hrow⟩ := Option.isSome_iff_exists.mp (hinv.2.parent id r hr)
    rcases proceed_changeSeats hpending hrow hrun with ⟨_, hchecks⟩ | ⟨rfl, hwritten⟩
    · rw [hinv.2.checks_returned hrow hr hactive] at hchecks
      cases hchecks
    · exact .runs ⟨row, hwritten.pending, hwritten.held _ hlock, hwritten.lock,
        hwritten.rows ▸ hr, hwritten.rows ▸ hrow⟩
  rintro _ s _ ⟨row, hreturned⟩
  refine decidesAll_query (fun marked s => marked = markReleased r ∧ SeatsReleased i id r row s)
    (keptBy_seatsReturned id r row) (by simp) ?_ ?_ hreturned
  · intro s generated answer s' hinv hreturned hrows hrun
    have hpositive := hinv.2.tables.positive id r hreturned.2.2.2.1
    obtain ⟨rfl, hreleased⟩ := proceed_markReleased hpositive hreturned hrun
    exact .runs ⟨rfl, hreleased⟩
  rintro _ s _ ⟨rfl, hreleased⟩
  refine decidesAll_commit (keptBy_seatsReleased id r row) ?_ hreleased
  intro s hinv hreleased
  obtain ⟨hview, _⟩ := hreleased.commit
  obtain ⟨_, _, _, hr, hrow⟩ := hreleased
  refine ⟨.proceed 0, ?_⟩
  simp only [serve, returnSeats, findReservation_of_unique hinv.2.tables hr, hactive, hrow, hview,
    ne_eq, not_true_eq_false, if_false]

theorem atomic (rows₀ : Rows) :
    Atomic service (discipline rows₀) sequentialStore committedRows quietStatement where
  sound := sound
  silent _ hquiet _ _ _ _ _ hinv hexec := ((execute_frame hexec hinv.1).2 hquiet).1
  decisive request i s _ hidle := by
    cases request with
    | reserveSeats flightID bookingID seatCount positive =>
        exact decidesAll_reserveSeats positive hidle
    | releaseReservation bookingID => exact decidesAll_releaseReservation hidle
  close _ _ _ := rfl
  outside change s s' _ h := by
    simp only [service, changeStatus, Option.map_eq_some_iff] at h
    obtain ⟨db, hwrite, rfl⟩ := h
    obtain ⟨row, hrow, _, rfl⟩ := RowStore.overwrite_cases hwrite
    change setStatus change s.db.rows = _
    rw [setStatus, hrow]
    rfl

/-- Nothing is forbidden to the requests of the store. -/
theorem allowed_any (pool : FlightPool) (event : Event Request Choice StatusChange) :
    (discipline rows₀).Allowed pool event := by
  cases event with
  | start request => exact fun _ _ _ _ => ⟨trivial, trivial⟩
  | step i choice => exact fun _ _ _ _ => trivial
  | stop i => trivial
  | outside change => trivial

/-- The flight store is linearizable. However its transactions are interleaved, fail and
    are stopped, the sequential store, serving each request in one of the steps of its
    transaction, has the same rows and gives the same answers. -/
theorem store_linearizable (hschema : Schema rows₀)
    {events : List (Event Request Choice StatusChange)} {pool : FlightPool}
    (hrun : service.run (Pool.initial (State.ofRows rows₀)) events = some pool) :
    ∃ (events' : List (Event Request ServeChoice StatusChange)) (pool' : Pool _ _ _ _ _ Rows),
      Condensed events events' ∧
        sequentialStore.service.run (Pool.initial rows₀) events' = some pool' ∧
        pool'.shared = pool.shared.db.rows ∧
        ∀ i request result, pool'.Answered i request result ↔
          pool.Answered i request result := by
  have hinitial : Atomic.Simulates service (discipline rows₀) sequentialStore committedRows
      quietStatement (Pool.initial (State.ofRows rows₀)) (Pool.initial rows₀) :=
    Atomic.simulates_initial ⟨hschema.toTables.consistent, accounts_initial hschema⟩
      fun i => RowStore.idle_ofRows rows₀ i
  obtain ⟨events', pool', hcondensed, hrun', hsimulates⟩ := (atomic rows₀).run
    (fun pool event _ => allowed_any pool event) hinitial (Service.passes_true _ events) hrun
  exact ⟨events', pool', hcondensed, hrun', hsimulates.shared,
    fun i request result => hsimulates.answered⟩

theorem store_linearizable_sample : ∃ pool : FlightPool,
    service.run (Pool.initial (State.ofRows sampleRows)) sampleEvents = some pool ∧
      ∃ (events' : List (Event Request ServeChoice StatusChange)) (pool' : Pool _ _ _ _ _ Rows),
        Condensed sampleEvents events' ∧
          sequentialStore.service.run (Pool.initial sampleRows) events' = some pool' ∧
          pool'.shared = pool.shared.db.rows ∧
          ∀ i request result, pool'.Answered i request result ↔
            pool.Answered i request result := by
  have hrun : (service.run (Pool.initial (State.ofRows sampleRows)) sampleEvents).isSome := by
    decide
  exact ⟨_, (Option.some_get hrun).symm,
    store_linearizable sampleRows_schema (Option.some_get hrun).symm⟩

end SoaHomework.FlightService
