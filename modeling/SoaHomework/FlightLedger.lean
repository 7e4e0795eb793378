import SoaHomework.FlightAccounts
import SoaHomework.RelyGuarantee
import SoaHomework.RowTransactions

/-!
# The seat ledger under concurrency

Each transaction of the flight store is verified on its own against what the
row locks keep for it. Whatever the interleaving, every step of the service
then is a `SeatStep` of the committed rows, so the accounts hold in every
reachable state.
-/

namespace SoaHomework.FlightService

open StatementProgram

/-! ## The frame of one statement -/

/-- What a statement of transaction `i` leaves alone. -/
structure Frame (i : Nat) (s s' : State) : Prop where
  consistent : s'.db.Consistent bookingIndex
  keeps : ∀ j, i ≠ j → RowStore.Keeps bookingIndex j s.db s'.db

theorem Frame.refl {i : Nat} {s : State} (hs : s.db.Consistent bookingIndex) : Frame i s s :=
  ⟨hs, fun j _ => RowStore.Keeps.refl j s.db⟩

/-- A statement other than the commit reaches the rows only through the store,
    and leaves the history alone. -/
theorem execute_access {i : Nat} {statement : Statement} {choice : Choice} {s s' : State}
    {answer : Answer statement} (h : execute i statement choice s = some (answer, s'))
    (hcommit : statement ≠ .commit) :
    RowStore.Access bookingIndex i s.db s'.db ∧ s'.journal = s.journal := by
  cases choice with
  | failure =>
      simp only [execute, Option.some.injEq, Prod.mk.injEq] at h
      obtain ⟨_, rfl⟩ := h
      exact ⟨.none, rfl⟩
  | proceed generated =>
      cases statement with
      | selectFlightForUpdate flightID =>
          simp only [execute, proceed, Option.map_eq_some_iff, Prod.mk.injEq] at h
          obtain ⟨⟨row, db⟩, hselect, _, rfl⟩ := h
          exact ⟨.selected hselect, rfl⟩
      | selectReservation bookingID =>
          simp only [execute, proceed, Option.some.injEq, Prod.mk.injEq] at h
          obtain ⟨_, rfl⟩ := h
          exact ⟨.none, rfl⟩
      | changeSeats change flightID =>
          simp only [execute, proceed, Option.map_eq_some_iff, Prod.mk.injEq] at h
          obtain ⟨⟨written, db⟩, hupdate, _, rfl⟩ := h
          exact ⟨.updated (by intro row; rfl) hupdate, rfl⟩
      | insertReservation flightID bookingID seatCount =>
          simp only [execute, proceed] at h
          split at h
          · simp only [Option.some.injEq, Prod.mk.injEq] at h
            obtain ⟨_, rfl⟩ := h
            exact ⟨.none, rfl⟩
          · split at h
            · simp only [Option.some.injEq, Prod.mk.injEq] at h
              obtain ⟨_, rfl⟩ := h
              exact ⟨.none, rfl⟩
            · simp only [Option.map_eq_some_iff, Prod.mk.injEq] at h
              obtain ⟨⟨written, db⟩, hinsert, _, rfl⟩ := h
              exact ⟨.insertedUnique rfl hinsert, rfl⟩
      | selectReservationForUpdate bookingID =>
          simp only [execute, proceed] at h
          split at h
          · simp only [Option.some.injEq, Prod.mk.injEq] at h
            obtain ⟨_, rfl⟩ := h
            exact ⟨.none, rfl⟩
          · simp only [Option.map_eq_some_iff, Prod.mk.injEq] at h
            obtain ⟨⟨row, db⟩, hselect, _, rfl⟩ := h
            exact ⟨.selected hselect, rfl⟩
      | markReleased id =>
          simp only [execute, proceed, Option.map_eq_some_iff, Prod.mk.injEq] at h
          obtain ⟨⟨written, db⟩, hupdate, _, rfl⟩ := h
          exact ⟨.updated (by intro row; rfl) hupdate, rfl⟩
      | commit => exact absurd rfl hcommit
      | selectFlight flightID =>
          simp only [execute, proceed, Option.some.injEq, Prod.mk.injEq] at h
          obtain ⟨_, rfl⟩ := h
          exact ⟨.none, rfl⟩

/-- A commit that does not fail. -/
theorem execute_commit {i : Nat} {choice : Choice} {s s' : State} {answer : Answer .commit}
    (h : execute i .commit choice s = some (answer, s')) : s' = s ∨ s'.db = s.db.commit i := by
  cases choice with
  | failure =>
      simp only [execute, Option.some.injEq, Prod.mk.injEq] at h
      exact Or.inl h.2.symm
  | proceed generated =>
      simp only [execute, proceed, Option.some.injEq, Prod.mk.injEq] at h
      obtain ⟨_, rfl⟩ := h
      exact Or.inr rfl

/-- A statement keeps the store consistent and what the other transactions
    hold, and only a commit changes the committed rows and their history. -/
theorem execute_frame {i : Nat} {statement : Statement} {choice : Choice} {s s' : State}
    {answer : Answer statement} (h : execute i statement choice s = some (answer, s'))
    (hs : s.db.Consistent bookingIndex) :
    Frame i s s' ∧
      (statement ≠ .commit → s'.db.rows = s.db.rows ∧ s'.journal = s.journal) := by
  by_cases hcommit : statement = .commit
  · subst hcommit
    refine ⟨?_, fun hne => absurd rfl hne⟩
    rcases execute_commit h with rfl | hdb
    · exact Frame.refl hs
    · constructor
      · rw [hdb]
        exact RowStore.commit_consistent i hs
      · rw [hdb]
        exact fun j hij => RowStore.commit_keeps hij hs
  · obtain ⟨haccess, hjournal⟩ := execute_access h hcommit
    refine ⟨⟨haccess.consistent hs, fun j hij => haccess.keeps hij⟩, fun _ => ?_⟩
    exact ⟨haccess.rows, hjournal⟩

/-! ## ReserveSeats -/

/-- An assertion that the locks of transaction `i` keep. -/
def KeptBy (i : Nat) (assertion : State → Prop) : Prop :=
  ∀ s s', RowStore.Keeps bookingIndex i s.db s'.db → assertion s → assertion s'

variable {i : Nat}

/-- The transaction has locked the flight and written nothing. -/
def FlightLocked (i : Nat) (flightID : Uuid) (row : Flight) (s : State) : Prop :=
  s.db.pending i = ∅ ∧ s.db.locks (.inl (.flight flightID)) = some i ∧
    s.db.rows.lookup (.flight flightID) = some row

/-- The transaction has taken the seats of the locked flight. -/
def SeatsTaken (i : Nat) (flightID : Uuid) (seatCount : Int) (row : Flight) (s : State) :
    Prop :=
  s.db.pending i = (∅ : Rows).insert (.flight flightID) (changeSeats (-seatCount) row) ∧
    s.db.locks (.inl (.flight flightID)) = some i ∧
    s.db.rows.lookup (.flight flightID) = some row

/-- The transaction has also written the reservation, under a key and a
    booking that nobody else can insert. -/
def SeatsReserved (i : Nat) (flightID bookingID : Uuid) (seatCount : Int) (row : Flight)
    (s : State) : Prop :=
  ∃ id, s.db.pending i =
      ((∅ : Rows).insert (.flight flightID) (changeSeats (-seatCount) row)).insert
        (.reservation id) ⟨flightID, bookingID, seatCount, .active⟩ ∧
    s.db.locks (.inl (.flight flightID)) = some i ∧
    s.db.locks (.inl (.reservation id)) = some i ∧
    s.db.locks (.inr bookingID) = some i ∧
    s.db.rows.lookup (.flight flightID) = some row ∧
    s.db.rows.lookup (.reservation id) = none ∧
    RowStore.Absent bookingIndex s.db.rows bookingID

theorem keptBy_idle : KeptBy i fun s => s.db.Idle i :=
  fun _ _ hkeeps hidle => hkeeps.idle hidle

theorem keptBy_flightLocked (flightID : Uuid) (row : Flight) :
    KeptBy i (FlightLocked i flightID row) := by
  rintro s s' hkeeps ⟨hpending, hlock, hrow⟩
  exact ⟨hkeeps.pending.trans hpending, (hkeeps.locks _).mpr hlock,
    (hkeeps.rows _ hlock).trans hrow⟩

theorem keptBy_seatsTaken (flightID : Uuid) (seatCount : Int) (row : Flight) :
    KeptBy i (SeatsTaken i flightID seatCount row) := by
  rintro s s' hkeeps ⟨hpending, hlock, hrow⟩
  exact ⟨hkeeps.pending.trans hpending, (hkeeps.locks _).mpr hlock,
    (hkeeps.rows _ hlock).trans hrow⟩

theorem keptBy_seatsReserved (flightID bookingID : Uuid) (seatCount : Int) (row : Flight) :
    KeptBy i (SeatsReserved i flightID bookingID seatCount row) := by
  rintro s s' hkeeps ⟨id, hpending, hlock, hid, hbooking, hrow, hnone, habsent⟩
  exact ⟨id, hkeeps.pending.trans hpending, (hkeeps.locks _).mpr hlock,
    (hkeeps.locks _).mpr hid, (hkeeps.locks _).mpr hbooking, (hkeeps.rows _ hlock).trans hrow,
    (hkeeps.rows _ hid).trans hnone, hkeeps.absent _ hbooking habsent⟩

/-- A transaction that has written nothing reads the committed rows. -/
theorem read_of_pending_empty {db : Db} {k : Key} (h : db.pending i = ∅) :
    db.read i k = db.rows.lookup k :=
  RowStore.read_of_not_pending (by rw [h]; exact AList.notMem_empty k)

theorem proceed_selectFlightForUpdate {flightID : Uuid} {s s' : State} {generated : Uuid}
    {answer : Answer (.selectFlightForUpdate flightID)} (hidle : s.db.Idle i)
    (h : proceed i generated s (.selectFlightForUpdate flightID) = some (answer, s')) :
    (answer = .ok none ∧ s.db.rows.lookup (.flight flightID) = none) ∨
      ∃ row, answer = .ok (some (row.availableSeats, row.status)) ∧
        FlightLocked i flightID row s' := by
  simp only [proceed, Option.map_eq_some_iff, Prod.mk.injEq] at h
  obtain ⟨⟨row?, db⟩, hselect, rfl, rfl⟩ := h
  rcases RowStore.selectForUpdate_cases hselect with
    ⟨hread, rfl, _⟩ | ⟨row, hread, rfl, hacquire⟩
  · rw [read_of_pending_empty hidle.pending] at hread
    exact Or.inl ⟨rfl, hread⟩
  · obtain ⟨hrows, hpending, _, _⟩ := RowStore.acquire_spec hacquire
    rw [read_of_pending_empty hidle.pending] at hread
    refine Or.inr ⟨row, rfl, ?_, RowStore.acquire_self hacquire, ?_⟩
    · rw [hpending, hidle.pending]
    · rw [hrows, hread]

/-- What the first write of a transaction leaves: the flight is locked, with its
    new seats pending, and the locks of before are still held. -/
structure SeatsWritten (i : Nat) (change : Int) (flightID : Uuid) (row : Flight) (s s' : State) :
    Prop where
  checks : (changeSeats change row).checks = true
  pending : s'.db.pending i = (∅ : Rows).insert (.flight flightID) (changeSeats change row)
  lock : s'.db.locks (.inl (.flight flightID)) = some i
  held : ∀ l, s.db.locks l = some i → s'.db.locks l = some i
  rows : s'.db.rows = s.db.rows

/-- The first write of a transaction. -/
theorem proceed_changeSeats {change : Int} {flightID : Uuid} {row : Flight} {s s' : State}
    {generated : Uuid} {answer : Answer (.changeSeats change flightID)}
    (hpending : s.db.pending i = ∅) (hrow : s.db.rows.lookup (.flight flightID) = some row)
    (h : proceed i generated s (.changeSeats change flightID) = some (answer, s')) :
    (answer = .error .checkViolation ∧ (changeSeats change row).checks = false) ∨
      (answer = .ok () ∧ SeatsWritten i change flightID row s s') := by
  simp only [proceed, Option.map_eq_some_iff, Prod.mk.injEq] at h
  obtain ⟨⟨written, db⟩, hupdate, rfl, rfl⟩ := h
  rcases RowStore.update_cases hupdate with ⟨hnone, _, _⟩ | ⟨found, db₁, hread, hacquire, hwrite⟩
  · rw [read_of_pending_empty hpending, hrow] at hnone
    cases hnone
  · rw [read_of_pending_empty hpending, hrow, Option.some.injEq] at hread
    subst hread
    obtain ⟨hrows, hsame, _, _⟩ := RowStore.acquire_spec hacquire
    rcases hwrite with ⟨hcheck, rfl, _⟩ | ⟨hcheck, rfl, rfl⟩
    · exact Or.inl ⟨rfl, hcheck⟩
    · refine Or.inr ⟨rfl, hcheck, ?_, ?_, fun l hl => ?_, ?_⟩
      · rw [RowStore.put_pending, hsame, hpending]
      · rw [RowStore.put_locks, RowStore.acquire_self hacquire]
      · rw [RowStore.put_locks, RowStore.acquire_held hacquire hl]
      · rw [RowStore.put_rows, hrows]

/-- The insertion is refused only when the booking has a reservation. -/
theorem proceed_insertReservation {flightID bookingID : Uuid} {seatCount : Int} {row : Flight}
    {s s' : State} {generated : Uuid}
    {answer : Answer (.insertReservation flightID bookingID seatCount)}
    (hs : s.db.Consistent bookingIndex) (htaken : SeatsTaken i flightID seatCount row s)
    (hpositive : 0 < seatCount)
    (h : proceed i generated s (.insertReservation flightID bookingID seatCount) =
      some (answer, s')) :
    (answer = .error .uniqueViolation ∧ ∃ id r, s.db.rows.lookup (.reservation id) = some r ∧
        r.bookingID = bookingID) ∨
      (answer = .ok ⟨flightID, bookingID, seatCount, .active⟩ ∧
        SeatsReserved i flightID bookingID seatCount row s') := by
  obtain ⟨hpending, hlock, hrow⟩ := htaken
  have hflight : s.db.read i (.flight flightID) = some (changeSeats (-seatCount) row) := by
    rw [RowStore.read_of_pending, hpending, AList.lookup_insert]
    rw [hpending, AList.mem_insert]
    exact Or.inl rfl
  simp only [proceed, Reservation.checks, decide_eq_true hpositive, Bool.true_eq_false,
    if_false, hflight, Option.isNone_some, Bool.false_eq_true, Option.map_eq_some_iff,
    Prod.mk.injEq] at h
  obtain ⟨⟨written, db⟩, hinsert, rfl, rfl⟩ := h
  rcases RowStore.insert_cases hinsert with
    ⟨rfl, _, k, found, hread, hindex⟩ | ⟨db₁, db₂, hfresh, _, habsent, hu, hk, rfl, rfl⟩
  · refine Or.inl ⟨rfl, ?_⟩
    cases k with
    | flight f => cases hindex
    | reservation id =>
        rw [RowStore.read_of_not_pending (by rw [hpending, AList.mem_insert]; simp)] at hread
        exact ⟨id, found, hread, Option.some.inj hindex⟩
  · obtain ⟨hrows₁, hpending₁, _, _⟩ := RowStore.acquire_spec hu
    obtain ⟨hrows₂, hpending₂, _, _⟩ := RowStore.acquire_spec hk
    refine Or.inr ⟨rfl, generated, ?_, ?_, ?_, ?_, ?_, ?_, ?_⟩
    · rw [RowStore.put_pending, hpending₂, hpending₁, hpending]
    · rw [RowStore.put_locks, RowStore.acquire_held hk (RowStore.acquire_held hu hlock)]
    · rw [RowStore.put_locks, RowStore.acquire_self hk]
    · rw [RowStore.put_locks, RowStore.acquire_held hk (RowStore.acquire_self hu)]
    · rw [RowStore.put_rows, hrows₂, hrows₁, hrow]
    · rw [RowStore.put_rows, hrows₂, hrows₁]
      exact AList.lookup_eq_none.mpr hfresh
    · rw [RowStore.put_rows, hrows₂, hrows₁]
      exact RowStore.absent_of_view hs habsent

/-- What the commit of a written reservation leaves. -/
theorem SeatsReserved.commit {flightID bookingID : Uuid} {seatCount : Int} {row : Flight}
    {s : State} (h : SeatsReserved i flightID bookingID seatCount row s) :
    ∃ id, s.db.rows.lookup (.reservation id) = none ∧
      s.db.view i = (s.db.rows.insert (.flight flightID) (changeSeats (-seatCount) row)).insert
        (.reservation id) ⟨flightID, bookingID, seatCount, .active⟩ ∧
      seatChanges s.db i = [⟨flightID, bookingID, -seatCount⟩] := by
  obtain ⟨id, hpending, _, _, _, hrow, hnone, _⟩ := h
  refine ⟨id, hnone, ?_, ?_⟩
  · rw [RowStore.view, hpending, union_writes]
  · simp [seatChanges, hpending, AList.weightAt_of_lookup hrow, changeSeats, List.kerase]

/-- Committing a written reservation is one step of the ledger. -/
theorem seatStep_reserve {flightID bookingID : Uuid} {seatCount : Int} {row : Flight}
    {s : State} (hreserved : SeatsReserved i flightID bookingID seatCount row s)
    (hscheduled : row.status = .scheduled) (hpositive : 0 < seatCount)
    (havailable : seatCount ≤ row.availableSeats) :
    SeatStep s.db.rows s.journal (s.db.view i) (s.journal ++ seatChanges s.db i) := by
  obtain ⟨id, hnone, hview, hchanges⟩ := hreserved.commit
  obtain ⟨_, _, _, _, _, hrow, _, habsent⟩ := hreserved
  rw [hview, hchanges]
  exact .reserve hrow hscheduled hpositive havailable hnone fun id' r hr hbooking =>
    habsent (.reservation id') r hr (congrArg some hbooking)

/-! ## ReleaseReservation -/

/-- The transaction has locked the reservation and written nothing. -/
def ReservationLocked (i : Nat) (id : Uuid) (r : Reservation) (s : State) : Prop :=
  s.db.pending i = ∅ ∧ s.db.locks (.inl (.reservation id)) = some i ∧
    s.db.rows.lookup (.reservation id) = some r

/-- The transaction has returned the seats of the locked reservation. -/
def SeatsReturned (i : Nat) (id : Uuid) (r : Reservation) (row : Flight) (s : State) : Prop :=
  s.db.pending i = (∅ : Rows).insert (.flight r.flightID) (changeSeats r.seatCount row) ∧
    s.db.locks (.inl (.reservation id)) = some i ∧
    s.db.locks (.inl (.flight r.flightID)) = some i ∧
    s.db.rows.lookup (.reservation id) = some r ∧
    s.db.rows.lookup (.flight r.flightID) = some row

/-- The transaction has also marked the reservation. -/
def SeatsReleased (i : Nat) (id : Uuid) (r : Reservation) (row : Flight) (s : State) : Prop :=
  s.db.pending i = ((∅ : Rows).insert (.flight r.flightID) (changeSeats r.seatCount row)).insert
      (.reservation id) (markReleased r) ∧
    s.db.locks (.inl (.reservation id)) = some i ∧
    s.db.locks (.inl (.flight r.flightID)) = some i ∧
    s.db.rows.lookup (.reservation id) = some r ∧
    s.db.rows.lookup (.flight r.flightID) = some row

theorem keptBy_reservationLocked (id : Uuid) (r : Reservation) :
    KeptBy i (ReservationLocked i id r) := by
  rintro s s' hkeeps ⟨hpending, hlock, hr⟩
  exact ⟨hkeeps.pending.trans hpending, (hkeeps.locks _).mpr hlock,
    (hkeeps.rows _ hlock).trans hr⟩

theorem keptBy_seatsReturned (id : Uuid) (r : Reservation) (row : Flight) :
    KeptBy i (SeatsReturned i id r row) := by
  rintro s s' hkeeps ⟨hpending, hid, hflight, hr, hrow⟩
  exact ⟨hkeeps.pending.trans hpending, (hkeeps.locks _).mpr hid,
    (hkeeps.locks _).mpr hflight, (hkeeps.rows _ hid).trans hr, (hkeeps.rows _ hflight).trans hrow⟩

theorem keptBy_seatsReleased (id : Uuid) (r : Reservation) (row : Flight) :
    KeptBy i (SeatsReleased i id r row) := by
  rintro s s' hkeeps ⟨hpending, hid, hflight, hr, hrow⟩
  exact ⟨hkeeps.pending.trans hpending, (hkeeps.locks _).mpr hid,
    (hkeeps.locks _).mpr hflight, (hkeeps.rows _ hid).trans hr, (hkeeps.rows _ hflight).trans hrow⟩

theorem proceed_selectReservationForUpdate {bookingID : Uuid} {s s' : State} {generated : Uuid}
    {answer : Answer (.selectReservationForUpdate bookingID)} (hidle : s.db.Idle i)
    (h : proceed i generated s (.selectReservationForUpdate bookingID) = some (answer, s')) :
    (answer = .ok none ∧ findReservation s.db.rows bookingID = none) ∨
      ∃ id r, answer = .ok (some (id, r)) ∧
        findReservation s.db.rows bookingID = some (id, r) ∧ ReservationLocked i id r s' := by
  have hview : s.db.view i = s.db.rows := by
    rw [RowStore.view, hidle.pending, AList.empty_union]
  simp only [proceed, hview] at h
  cases hfound : findReservation s.db.rows bookingID with
  | none =>
      simp only [hfound, Option.some.injEq, Prod.mk.injEq] at h
      exact Or.inl ⟨h.1.symm, rfl⟩
  | some found =>
      obtain ⟨id, r⟩ := found
      have hr := (findReservation_some hfound).1
      simp only [hfound, Option.map_eq_some_iff, Prod.mk.injEq] at h
      obtain ⟨⟨row?, db⟩, hselect, rfl, rfl⟩ := h
      rcases RowStore.selectForUpdate_cases hselect with
        ⟨hread, _, _⟩ | ⟨row, hread, rfl, hacquire⟩
      · rw [read_of_pending_empty hidle.pending, hr] at hread
        cases hread
      · obtain ⟨hrows, hpending, _, _⟩ := RowStore.acquire_spec hacquire
        rw [read_of_pending_empty hidle.pending, hr] at hread
        obtain rfl := Option.some.inj hread
        refine Or.inr ⟨id, r, rfl, rfl, ?_, RowStore.acquire_self hacquire, ?_⟩
        · rw [hpending, hidle.pending]
        · rw [hrows, hr]

theorem proceed_markReleased {id : Uuid} {r : Reservation} {row : Flight} {s s' : State}
    {generated : Uuid} {answer : Answer (.markReleased id)} (hpositive : 0 < r.seatCount)
    (hreturned : SeatsReturned i id r row s)
    (h : proceed i generated s (.markReleased id) = some (answer, s')) :
    answer = .ok (markReleased r) ∧ SeatsReleased i id r row s' := by
  obtain ⟨hpending, hlock, hflight, hr, hrow⟩ := hreturned
  simp only [proceed, Option.map_eq_some_iff, Prod.mk.injEq] at h
  obtain ⟨⟨written, db⟩, hupdate, rfl, rfl⟩ := h
  have hchecks : (markReleased r).checks = true := decide_eq_true hpositive
  have hunwritten : s.db.read i (.reservation id) = some r := by
    rw [RowStore.read_of_not_pending, hr]
    rw [hpending, AList.mem_insert]
    simp
  rcases RowStore.update_cases hupdate with ⟨hnone, _, _⟩ | ⟨found, db₁, hread, hacquire, hwrite⟩
  · rw [hunwritten] at hnone
    cases hnone
  · rw [hunwritten, Option.some.injEq] at hread
    subst hread
    obtain ⟨hrows, hsame, _, _⟩ := RowStore.acquire_spec hacquire
    rcases hwrite with ⟨hcheck, _, _⟩ | ⟨_, rfl, rfl⟩
    · rw [hchecks] at hcheck
      cases hcheck
    · refine ⟨rfl, ?_, ?_, ?_, ?_, ?_⟩
      · rw [RowStore.put_pending, hsame, hpending]
      · rw [RowStore.put_locks, RowStore.acquire_self hacquire]
      · rw [RowStore.put_locks, RowStore.acquire_held hacquire hflight]
      · rw [RowStore.put_rows, hrows, hr]
      · rw [RowStore.put_rows, hrows, hrow]

/-- What the commit of a written release leaves. -/
theorem SeatsReleased.commit {id : Uuid} {r : Reservation} {row : Flight} {s : State}
    (h : SeatsReleased i id r row s) :
    s.db.view i = (s.db.rows.insert (.flight r.flightID) (changeSeats r.seatCount row)).insert
        (.reservation id) (markReleased r) ∧
      seatChanges s.db i = [⟨r.flightID, r.bookingID, r.seatCount⟩] := by
  obtain ⟨hpending, _, _, _, hrow⟩ := h
  refine ⟨?_, ?_⟩
  · rw [RowStore.view, hpending, union_writes]
  · simp [seatChanges, hpending, AList.weightAt_of_lookup hrow, changeSeats, markReleased,
      List.kerase]

/-- Committing a written release is one step of the ledger. -/
theorem seatStep_release {id : Uuid} {r : Reservation} {row : Flight} {s : State}
    (hreleased : SeatsReleased i id r row s) (hactive : r.status = .active) :
    SeatStep s.db.rows s.journal (s.db.view i) (s.journal ++ seatChanges s.db i) := by
  obtain ⟨hview, hchanges⟩ := hreleased.commit
  obtain ⟨_, _, _, hr, hrow⟩ := hreleased
  rw [hview, hchanges]
  exact .release hrow hr hactive

/-! ## The logic of the transactions -/

/-- What a transaction is about to commit when it will answer `value`. -/
inductive Written (i : Nat) (value : Reservation) (s : State) : Prop where
  | reserved {flightID bookingID : Uuid} {seatCount : Int} {row : Flight}
      (hvalue : value = ⟨flightID, bookingID, seatCount, .active⟩)
      (hreserved : SeatsReserved i flightID bookingID seatCount row s)
      (hscheduled : row.status = .scheduled) (hpositive : 0 < seatCount)
      (havailable : seatCount ≤ row.availableSeats)
      (hchecks : (changeSeats (-seatCount) row).checks = true)
  | released {id : Uuid} {r : Reservation} {row : Flight} (hvalue : value = markReleased r)
      (hreleased : SeatsReleased i id r row s) (hactive : r.status = .active)
      (hchecks : (changeSeats r.seatCount row).checks = true)

theorem Written.seatStep {value : Reservation} {s : State} (h : Written i value s) :
    SeatStep s.db.rows s.journal (s.db.view i) (s.journal ++ seatChanges s.db i) := by
  cases h with
  | reserved _ hreserved hscheduled hpositive havailable _ =>
      exact seatStep_reserve hreserved hscheduled hpositive havailable
  | released _ hreleased hactive _ => exact seatStep_release hreleased hactive

/-- The write set has the flight of the reservation and the reservation. -/
theorem Written.pending {value : Reservation} {s : State} (h : Written i value s) :
    ∃ id change row, s.db.rows.lookup (.flight value.flightID) = some row ∧
      s.db.pending i =
        ((∅ : Rows).insert (.flight value.flightID) (changeSeats change row)).insert
          (.reservation id) value := by
  cases h with
  | reserved hvalue hreserved _ _ _ _ =>
      obtain ⟨id, hpending, _, _, _, hrow, _⟩ := hreserved
      subst hvalue
      exact ⟨id, _, _, hrow, hpending⟩
  | @released id r row hvalue hreleased _ _ =>
      subst hvalue
      exact ⟨id, _, row, hreleased.2.2.2.2, hreleased.1⟩

theorem Written.tables {value : Reservation} {s : State} (h : Written i value s)
    (htables : Tables s.db.rows) : Tables (s.db.view i) := by
  cases h with
  | reserved _ hreserved _ hpositive _ hchecks =>
      obtain ⟨id, hpending, _, _, _, hrow, _, habsent⟩ := hreserved
      rw [RowStore.view, hpending, union_writes]
      exact htables.commit hrow hchecks rfl hpositive fun id' r' hr' hbooking =>
        absurd (congrArg some hbooking) (habsent (.reservation id') r' hr')
  | @released id r row _ hreleased _ hchecks =>
      obtain ⟨hpending, _, _, hr, hrow⟩ := hreleased
      rw [RowStore.view, hpending, union_writes]
      exact htables.commit hrow hchecks rfl (htables.positive id r hr)
        fun id' r' hr' hbooking => htables.unique id' id r' r hr' hr hbooking

/-- The error of a violated `CHECK`. -/
abbrev checkFailed : StoreError := .db .checkViolation

/-- A statement's result, or an error that is tolerated. -/
def OnResult (tolerated : StoreError → Prop) {statement : Statement}
    (middle : Result statement → State → Prop) : Answer statement → State → Prop
  | .ok result, s => middle result s
  | .error error, _ => tolerated (.db error)

/-- What the proofs of the two transactions need of the system they run in: its
    states have a database under `store`, and `safe` says that a program may go
    on from a state, to end with an `expected` value or a `tolerated` error. -/
structure TransactionLogic {σ : Type} (i : Nat) (store : σ → State) (ready : σ → Prop)
    (expected : Reservation → Prop) (tolerated : StoreError → Prop)
    (safe : Program Statement Answer StoreError Reservation → σ → Prop) : Prop where
  consistent : ∀ s, ready s → (store s).db.Consistent bookingIndex
  tables : ∀ s, ready s → Tables (store s).db.rows
  tolerates : ∀ error, error ≠ checkFailed → tolerated error
  taken : ∀ s f (row : Flight) n, ready s → (store s).db.rows.lookup (.flight f) = some row →
    0 < n → n ≤ row.availableSeats → (changeSeats (-n) row).checks = false →
      tolerated checkFailed
  returned : ∀ s id (r : Reservation) (row : Flight), ready s →
    (store s).db.rows.lookup (.reservation id) = some r →
    (store s).db.rows.lookup (.flight r.flightID) = some row → r.status = .active →
      (changeSeats r.seatCount row).checks = false → tolerated checkFailed
  fail : ∀ s error, ready s → tolerated error → safe (.fail error) s
  query : ∀ {statement : Statement} {pre : State → Prop}
    (middle : Result statement → State → Prop)
    {next : Result statement → Program Statement Answer StoreError Reservation},
    KeptBy i pre → statement ≠ .commit →
    (∀ s generated answer store', ready s → pre (store s) →
      proceed i generated (store s) statement = some (answer, store') →
        OnResult tolerated middle answer store') →
    (∀ result s, ready s → middle result (store s) → safe (next result) s) →
    ∀ s, ready s → pre (store s) → safe (query statement >>= next) s
  commit : ∀ {pre : State → Prop} {value : Reservation}, KeptBy i pre → expected value →
    (∀ s, pre s → Written i value s) →
    ∀ s, ready s → pre (store s) → safe (FlightService.query .commit >>= fun _ => .ret value) s

namespace TransactionLogic

variable {σ : Type} {store : σ → State} {ready : σ → Prop} {expected : Reservation → Prop}
  {tolerated : StoreError → Prop}
  {safe : Program Statement Answer StoreError Reservation → σ → Prop}

theorem raiseIf (L : TransactionLogic i store ready expected tolerated safe) {failed : Bool}
    {error : StoreError} {next : Unit → Program Statement Answer StoreError Reservation} {s : σ}
    (hs : ready s) (herror : error ≠ checkFailed) (hnext : failed = false → safe (next ()) s) :
    safe (Program.raiseIf failed error >>= next) s := by
  cases failed with
  | true => exact L.fail s error hs (L.tolerates error herror)
  | false => exact hnext rfl

theorem reserveSeats (L : TransactionLogic i store ready expected tolerated safe)
    (flightID bookingID : Uuid) {seatCount : Int} (hpositive : 0 < seatCount)
    (hexpected : expected ⟨flightID, bookingID, seatCount, .active⟩) :
    ∀ s, ready s → (store s).db.Idle i →
      safe (Store.reserveSeats flightID bookingID seatCount) s := by
  refine L.query (fun result s => result = none ∨ ∃ row,
    result = some (row.availableSeats, row.status) ∧ FlightLocked i flightID row s)
    keptBy_idle (by simp) ?_ fun result s hs hfound => ?_
  · intro s generated answer store' _ hidle hrun
    rcases proceed_selectFlightForUpdate hidle hrun with ⟨rfl, _⟩ | ⟨row, rfl, hlocked⟩
    · exact Or.inl rfl
    · exact Or.inr ⟨row, rfl, hlocked⟩
  rcases hfound with rfl | ⟨row, rfl, hlocked⟩
  · exact L.fail s .notFound hs (L.tolerates _ (by simp))
  refine L.raiseIf hs (by simp) fun hstatus => L.raiseIf hs (by simp) fun hseats => ?_
  have hscheduled : row.status = .scheduled := by simpa using hstatus
  have havailable : seatCount ≤ row.availableSeats := by simpa using hseats
  refine L.query (fun _ => FlightLocked i flightID row) (keptBy_flightLocked flightID row)
    (by simp) ?_ (fun existing s hs hlocked => ?_) s hs hlocked
  · intro s generated answer store' _ hlocked hrun
    simp only [proceed, Option.some.injEq, Prod.mk.injEq] at hrun
    obtain ⟨rfl, rfl⟩ := hrun
    exact hlocked
  refine L.raiseIf hs (by simp) fun _ => ?_
  refine L.query (fun _ s => (changeSeats (-seatCount) row).checks = true ∧
      SeatsTaken i flightID seatCount row s) (keptBy_flightLocked flightID row) (by simp) ?_
    (fun _ s hs htaken => ?_) s hs hlocked
  · intro s generated answer store' hs hlocked hrun
    obtain ⟨hpending, _, hrow⟩ := hlocked
    rcases proceed_changeSeats hpending hrow hrun with ⟨rfl, hchecks⟩ | ⟨rfl, hwritten⟩
    · exact L.taken s flightID row seatCount hs hrow hpositive havailable hchecks
    · exact ⟨hwritten.checks, hwritten.pending, hwritten.lock, hwritten.rows ▸ hrow⟩
  obtain ⟨hchecks, htaken⟩ := htaken
  refine L.query (fun (r : Reservation) s => r = ⟨flightID, bookingID, seatCount, .active⟩ ∧
      SeatsReserved i flightID bookingID seatCount row s)
    (keptBy_seatsTaken flightID seatCount row) (by simp) ?_
    (fun r s hs hreserved => ?_) s hs htaken
  · intro s generated answer store' hs htaken hrun
    rcases proceed_insertReservation (L.consistent s hs) htaken hpositive hrun with
      ⟨rfl, _⟩ | ⟨rfl, hreserved⟩
    · exact L.tolerates _ (by simp)
    · exact ⟨rfl, hreserved⟩
  obtain ⟨rfl, hreserved⟩ := hreserved
  exact L.commit (keptBy_seatsReserved flightID bookingID seatCount row) hexpected
    (fun s hreserved => .reserved rfl hreserved hscheduled hpositive havailable hchecks)
    s hs hreserved

theorem releaseReservation (L : TransactionLogic i store ready expected tolerated safe)
    (bookingID : Uuid) (hexpected : ∀ r, expected (markReleased r)) :
    ∀ s, ready s → (store s).db.Idle i → safe (Store.releaseReservation bookingID) s := by
  refine L.query (fun result s => result = none ∨ ∃ id r,
    result = some (id, r) ∧ ReservationLocked i id r s) keptBy_idle (by simp) ?_
    fun result s hs hfound => ?_
  · intro s generated answer store' _ hidle hrun
    rcases proceed_selectReservationForUpdate hidle hrun with
      ⟨rfl, _⟩ | ⟨id, r, rfl, _, hlocked⟩
    · exact Or.inl rfl
    · exact Or.inr ⟨id, r, rfl, hlocked⟩
  rcases hfound with rfl | ⟨id, r, rfl, hlocked⟩
  · exact L.fail s .notFound hs (L.tolerates _ (by simp))
  refine L.raiseIf hs (by simp) fun hstatus => ?_
  have hactive : r.status = .active := by simpa using hstatus
  refine L.query (fun _ s => ∃ row, (changeSeats r.seatCount row).checks = true ∧
      SeatsReturned i id r row s) (keptBy_reservationLocked id r) (by simp) ?_
    (fun _ s hs hreturned => ?_) s hs hlocked
  · intro s generated answer store' hs hlocked hrun
    obtain ⟨hpending, hlock, hr⟩ := hlocked
    obtain ⟨row, hrow⟩ := Option.isSome_iff_exists.mp ((L.tables s hs).parent id r hr)
    rcases proceed_changeSeats hpending hrow hrun with ⟨rfl, hchecks⟩ | ⟨rfl, hwritten⟩
    · exact L.returned s id r row hs hr hrow hactive hchecks
    · exact ⟨row, hwritten.checks, hwritten.pending, hwritten.held _ hlock, hwritten.lock,
        hwritten.rows ▸ hr, hwritten.rows ▸ hrow⟩
  obtain ⟨row, hchecks, hreturned⟩ := hreturned
  refine L.query (fun marked s => marked = markReleased r ∧ SeatsReleased i id r row s)
    (keptBy_seatsReturned id r row) (by simp) ?_ (fun marked s hs hreleased => ?_) s hs hreturned
  · intro s generated answer store' hs hreturned hrun
    have hpositive := (L.tables s hs).positive id r hreturned.2.2.2.1
    obtain ⟨rfl, hreleased⟩ := proceed_markReleased hpositive hreturned hrun
    exact ⟨rfl, hreleased⟩
  obtain ⟨rfl, hreleased⟩ := hreleased
  exact L.commit (keptBy_seatsReleased id r row) (hexpected r)
    (fun s hreleased => .released rfl hreleased hactive hchecks) s hs hreleased

end TransactionLogic

/-! ## The discipline of the store -/

def discipline (rows₀ : Rows) :
    Discipline Statement StoreError Reservation Request State where
  inv s := s.db.Consistent bookingIndex ∧ Accounts rows₀ s.db.rows s.journal
  rely _ i s s' := RowStore.Keeps bookingIndex i s.db s'.db
  guarantee _ i s s' := (∀ j, i ≠ j → RowStore.Keeps bookingIndex j s.db s'.db) ∧
    SeatStep s.db.rows s.journal s'.db.rows s'.journal
  unused i s := s.db.Idle i
  compatible _ _ := True
  permitted _ _ _ _ := True
  known _ _ _ _ := True
  answer _ _ result _ := result ≠ .error checkFailed

variable {rows₀ : Rows} {request : Request}

/-- Where the accounts hold, the `CHECK` constraints refuse nothing. -/
theorem transactionLogic : TransactionLogic i id (discipline rows₀).inv (fun _ => True)
    (· ≠ checkFailed)
    ((discipline rows₀).Safe service request i ((discipline rows₀).answer request i)) where
  consistent s hinv := hinv.1
  tables s hinv := hinv.2.tables
  tolerates error h := h
  taken s f row n hinv hrow hn havailable hchecks := by
    rw [hinv.2.checks_taken hrow hn havailable] at hchecks
    cases hchecks
  returned s id r row hinv hr hrow hactive hchecks := by
    rw [hinv.2.checks_returned hrow hr hactive] at hchecks
    cases hchecks
  fail s error _ herror heq := herror (Except.error.inj heq)
  query {statement pre} middle next hkept hcommit hexec hnext := by
    refine Discipline.Triple.step (OnResult (· ≠ checkFailed) middle)
      (fun s s' _ => hkept s s') ?_ ?_
    · refine fun s hinv hpre => ⟨trivial, fun _ choice answer s' hrun => ?_⟩
      obtain ⟨hframe, hrows⟩ := execute_frame hrun hinv.1
      obtain ⟨hsame, hjournal⟩ := hrows hcommit
      refine ⟨⟨hframe.consistent, ?_⟩, ⟨hframe.keeps, ?_⟩, ?_⟩
      · rw [hsame, hjournal]
        exact hinv.2
      · rw [hsame, hjournal]
        exact .unchanged
      · cases choice with
        | failure =>
            have herror : answer = .error .failure := by
              simp only [service, execute, Option.some.injEq, Prod.mk.injEq] at hrun
              exact hrun.1.symm
            subst herror
            simp [OnResult]
        | proceed generated => exact hexec s generated answer s' hinv hpre hrun
    · intro answer
      cases answer with
      | ok result => exact hnext result
      | error error => exact fun s _ hne heq => hne (Except.error.inj heq)
  commit {pre value} hkept _ hwritten := by
    refine Discipline.Triple.step (fun answer _ => answer ≠ .error .checkViolation)
      (fun s s' _ => hkept s s') ?_ ?_
    · refine fun s hinv hpre => ⟨trivial, fun _ choice answer s' hrun => ?_⟩
      obtain ⟨hframe, _⟩ := execute_frame hrun hinv.1
      cases choice with
      | failure =>
          simp only [service, execute, Option.some.injEq, Prod.mk.injEq] at hrun
          obtain ⟨rfl, rfl⟩ := hrun
          exact ⟨hinv, ⟨hframe.keeps, .unchanged⟩, by simp⟩
      | proceed generated =>
          simp only [service, execute, proceed, Option.some.injEq, Prod.mk.injEq] at hrun
          obtain ⟨rfl, rfl⟩ := hrun
          have hstep := (hwritten s hpre).seatStep
          exact ⟨⟨hframe.consistent, hstep.accounts hinv.2⟩, ⟨hframe.keeps, hstep⟩, by simp⟩
    · intro answer
      cases answer with
      | ok result => exact Discipline.Triple.ret fun s _ _ => by simp [discipline]
      | error error =>
          refine Discipline.Triple.fail fun s _ hne => ?_
          simpa [discipline, checkFailed] using hne

/-! ## Every run -/

/-- A status change touches no row that a transaction has locked. -/
theorem changeStatus_frame {change : StatusChange} {s s' : State}
    (h : changeStatus change s = some s') (hs : s.db.Consistent bookingIndex) :
    s'.db.Consistent bookingIndex ∧ (∀ j, RowStore.Keeps bookingIndex j s.db s'.db) ∧
      SeatStep s.db.rows s.journal s'.db.rows s'.journal := by
  simp only [changeStatus, Option.map_eq_some_iff] at h
  obtain ⟨db, hwrite, rfl⟩ := h
  refine ⟨RowStore.overwrite_consistent (by intro f; rfl) hwrite hs,
    fun j => RowStore.overwrite_keeps (by intro f; rfl) hwrite, ?_⟩
  obtain ⟨row, hrow, _, rfl⟩ := RowStore.overwrite_cases hwrite
  exact .status hrow change.status

theorem sound : (discipline rows₀).Sound service where
  rely_refl _ i s := RowStore.Keeps.refl i s.db
  rely_trans _ _ _ _ _ h h' := h.trans h'
  guarantee_rely _ _ _ j _ _ hij _ _ h := h.1 j hij
  guarantee_unused _ _ j _ _ hij h hidle := (h.1 j hij).idle hidle
  guarantee_answer _ _ _ _ _ _ _ _ _ _ h := h
  close_inv i s h := ⟨RowStore.rollback_consistent i h.1, h.2⟩
  close_guarantee _ i s _ := ⟨fun j hij => RowStore.rollback_keeps hij, .unchanged⟩
  close_answer _ _ _ _ _ h := h
  answer_stable _ _ _ _ _ _ _ h := h
  outside_inv change s s' h hinv := by
    obtain ⟨hconsistent, _, hstep⟩ := changeStatus_frame h hinv.1
    exact ⟨hconsistent, hstep.accounts hinv.2⟩
  outside_rely change s s' h hinv _ i := (changeStatus_frame h hinv.1).2.1 i
  outside_unused change s s' h i hidle := by
    simp only [service, changeStatus, Option.map_eq_some_iff] at h
    obtain ⟨db, hwrite, rfl⟩ := h
    have hkeeps : RowStore.Keeps bookingIndex i s.db db :=
      RowStore.overwrite_keeps (by intro f; rfl) hwrite
    exact hkeeps.idle hidle
  handler_safe request i := by
    cases request with
    | reserveSeats flightID bookingID seatCount positive =>
        exact transactionLogic.reserveSeats flightID bookingID positive trivial
    | releaseReservation bookingID =>
        exact transactionLogic.releaseReservation bookingID fun _ => trivial

theorem Tables.consistent {rows : Rows} (h : Tables rows) :
    (RowStore.ofRows rows : Db).Consistent bookingIndex := by
  refine RowStore.consistent_ofRows ?_
  intro k k' row row' u hrow hrow' hu hu'
  cases k with
  | flight f => cases hu
  | reservation id =>
      cases k' with
      | flight f => cases hu'
      | reservation id' =>
          rw [h.unique id id' row row' hrow hrow' (Option.some.inj (hu.trans hu'.symm))]

theorem holds_ofRows (h : Schema rows₀) :
    (discipline rows₀).Holds service (Pool.initial (State.ofRows rows₀)) :=
  Discipline.holds_initial ⟨h.toTables.consistent, accounts_initial h⟩
    fun i => RowStore.idle_ofRows rows₀ i

/-- Every step is one the discipline speaks about. -/
theorem steps_allowed {first final : FlightPool} (h : service.Steps Service.anyStep first final) :
    service.Steps (discipline rows₀).Allowed first final := by
  refine h.mono fun pool event _ => ?_
  cases event with
  | start request => exact fun _ _ _ _ => ⟨trivial, trivial⟩
  | step i choice => exact fun _ _ _ _ => trivial
  | stop i => trivial
  | outside change => trivial

theorem holds_of_steps (h : Schema rows₀) {pool : FlightPool}
    (hsteps : service.Steps Service.anyStep (Pool.initial (State.ofRows rows₀)) pool) :
    (discipline rows₀).Holds service pool :=
  Discipline.holds_steps sound (steps_allowed hsteps) (holds_ofRows h)

/-- A step of the service is a step of the ledger. -/
theorem seatStep_of_next {pool pool' : FlightPool} {event : Event Request Choice StatusChange}
    (hpool : (discipline rows₀).Holds service pool)
    (hnext : service.next pool event = some pool') :
    SeatStep pool.shared.db.rows pool.shared.journal pool'.shared.db.rows
      pool'.shared.journal := by
  cases Service.move_of_next hnext with
  | start request => exact .unchanged
  | exec hthread hexec =>
      obtain ⟨_, hsteps⟩ := hpool.running _ _ _ hthread _ hpool.inv (sound.rely_refl _ _ _)
      obtain ⟨_, hguarantee, _⟩ := hsteps trivial _ _ _ hexec
      exact hguarantee.2
  | answer => exact .unchanged
  | stop => exact .unchanged
  | outside hchange => exact (changeStatus_frame hchange hpool.inv.1).2.2

/-- What holds of the committed rows, their history and the requests in every
    reachable state. -/
structure SeatLedger (rows₀ : Rows) (pool : FlightPool) : Prop where
  kept : ∀ f, (pool.shared.db.rows.lookup (.flight f)).isSome ↔
    (rows₀.lookup (.flight f)).isSome
  conserved : ∀ f (row₀ row : Flight), rows₀.lookup (.flight f) = some row₀ →
    pool.shared.db.rows.lookup (.flight f) = some row →
    row.availableSeats + activeSeats f pool.shared.db.rows =
      row₀.availableSeats + activeSeats f rows₀
  bounded : ∀ f (row : Flight), pool.shared.db.rows.lookup (.flight f) = some row →
    0 ≤ row.availableSeats ∧ row.availableSeats ≤ row.totalSeats
  unviolated : ∀ i request, ¬ pool.Runs i request (.fail checkFailed) ∧
    ¬ pool.Answered i request (.error checkFailed)
  booking : ∀ id id' (r r' : Reservation),
    pool.shared.db.rows.lookup (.reservation id) = some r →
    pool.shared.db.rows.lookup (.reservation id') = some r' →
    r.bookingID = r'.bookingID → id = id'
  returned : ∀ b, (returnsOf b pool.shared.journal).length ≤ 1
  version : ∀ f (row₀ row : Flight), rows₀.lookup (.flight f) = some row₀ →
    pool.shared.db.rows.lookup (.flight f) = some row →
    row.version = row₀.version + (changesOf f pool.shared.journal).length ∧
      row.availableSeats = row₀.availableSeats + (changesOf f pool.shared.journal).sum

theorem seatLedger_of_holds {pool : FlightPool} (h : (discipline rows₀).Holds service pool) :
    SeatLedger rows₀ pool where
  kept := h.inv.2.kept
  conserved f row₀ row h₀ hrow := (h.inv.2.flight f row₀ row h₀ hrow).seats
  bounded f row hrow := by
    obtain ⟨_, hnonneg, _, hle⟩ := row.checks_iff.mp (h.inv.2.checks hrow)
    exact ⟨hnonneg, hle⟩
  unviolated i request :=
    ⟨fun hruns => h.running i request _ hruns rfl,
      fun hanswered => h.answered i request _ hanswered rfl⟩
  booking := h.inv.2.unique
  returned := h.inv.2.returned
  version f row₀ row h₀ hrow :=
    ⟨(h.inv.2.flight f row₀ row h₀ hrow).version, (h.inv.2.flight f row₀ row h₀ hrow).available⟩

/-- What a single step changes: `version` moves by one exactly when
    `available_seats` moves, and a reservation that is not `ACTIVE` never moves
    again. -/
structure SeatTransition (rows rows' : Rows) : Prop where
  version : ∀ f (row row' : Flight), rows.lookup (.flight f) = some row →
    rows'.lookup (.flight f) = some row' →
    (row'.version = row.version ∧ row'.availableSeats = row.availableSeats) ∨
      (row'.version = row.version + 1 ∧ row'.availableSeats ≠ row.availableSeats)
  reservation : ∀ id (r : Reservation), rows.lookup (.reservation id) = some r →
    rows'.lookup (.reservation id) = some r ∨
      (r.status = .active ∧ rows'.lookup (.reservation id) = some (markReleased r))

/-- The history of a run only grows. -/
theorem history_grows {pool pool' : FlightPool} (hpool : (discipline rows₀).Holds service pool)
    (hsteps : service.Steps Service.anyStep pool pool') :
    pool.shared.journal <+: pool'.shared.journal := by
  refine Discipline.transition_steps sound (R := fun s s' => s.journal <+: s'.journal)
    (fun s => List.prefix_refl _) (fun _ _ _ h h' => h.trans h') ?_ ?_
    (steps_allowed hsteps) hpool
  · exact fun _ _ _ _ _ h => h.2.journal_grows
  · exact fun change s s' hinv h => (changeStatus_frame h hinv.1).2.2.journal_grows

/-- The seat ledger: it holds in every reachable state, every step is one of
    its transitions, and two snapshots of a flight with equal `version` have
    equal `available_seats`. -/
theorem seat_ledger (rows₀ : Rows) (hschema : Schema rows₀) (pool : FlightPool)
    (hsteps : service.Steps Service.anyStep (Pool.initial (State.ofRows rows₀)) pool) :
    SeatLedger rows₀ pool ∧
      (∀ event pool', service.next pool event = some pool' →
        SeatTransition pool.shared.db.rows pool'.shared.db.rows) ∧
      ∀ pool', service.Steps Service.anyStep pool pool' → ∀ f (row row' : Flight),
        pool.shared.db.rows.lookup (.flight f) = some row →
        pool'.shared.db.rows.lookup (.flight f) = some row' →
        row.version = row'.version → row.availableSeats = row'.availableSeats := by
  have hpool := holds_of_steps hschema hsteps
  refine ⟨seatLedger_of_holds hpool, fun event pool' hnext => ?_, fun pool' hlater => ?_⟩
  · have hstep := seatStep_of_next hpool hnext
    exact ⟨fun f row row' hrow hrow' => hstep.version hpool.inv.2 hrow hrow',
      fun id r hr => hstep.reservation hr⟩
  · intro f row row' hrow hrow' hversion
    have hpool' := holds_of_steps hschema (hsteps.trans hlater)
    exact hpool.inv.2.equal_versions hpool'.inv.2 (history_grows hpool hlater) hrow hrow' hversion

/-- A flight with four seats. -/
def sampleFlight : Flight where
  airline := "Aeroflot"
  flightNumber := "SU1234"
  origin := "SVO"
  destination := "LED"
  departureTime := 1775034000
  arrivalTime := 1775039400
  totalSeats := 4
  availableSeats := 4
  priceCents := 450000
  status := .scheduled
  version := 1
  flightDate := 20544

def sampleRows : Rows := (∅ : Rows).insert (.flight 1) sampleFlight

theorem eq_of_lookup_flight {f g : Uuid} {row found : Flight}
    (h : ((∅ : Rows).insert (.flight f) row).lookup (.flight g) = some found) : found = row := by
  by_cases hg : g = f
  · subst hg
    rw [AList.lookup_insert, Option.some.injEq] at h
    exact h.symm
  · rw [AList.lookup_insert_ne (by simpa using hg), AList.lookup_empty] at h
    cases h

theorem tables_flight (f : Uuid) {row : Flight} (h : row.checks = true) :
    Tables ((∅ : Rows).insert (.flight f) row) := by
  have hnone : ∀ id (r : Reservation),
      ((∅ : Rows).insert (.flight f) row).lookup (.reservation id) ≠ some r := by
    intro id r hr
    rw [AList.lookup_insert_ne (by simp), AList.lookup_empty] at hr
    cases hr
  refine ⟨fun id _ r _ hr => absurd hr (hnone id r), fun id r hr => absurd hr (hnone id r),
    fun id r hr => absurd hr (hnone id r), fun g found hfound => ?_⟩
  · rw [eq_of_lookup_flight hfound]
    exact h

theorem sampleRows_schema : Schema sampleRows := by
  refine ⟨tables_flight 1 (by decide), fun f row hrow => ?_⟩
  have hactive : activeSeats f sampleRows = 0 := rfl
  have hle := (row.checks_iff.mp ((tables_flight 1 (by decide)).checks f row hrow)).2.2.2
  rw [hactive, add_zero]
  exact hle

/-- A reservation, one that finds too few seats left, and the release of the
    first, which overlaps with it. -/
def sampleEvents : List (Event Request Choice StatusChange) :=
  [.start (.reserveSeats 1 7 3 (by decide)), .start (.reserveSeats 1 8 2 (by decide)),
    .step 0 (.proceed 0), .step 0 (.proceed 0), .step 0 (.proceed 0), .step 0 (.proceed 20),
    .step 0 (.proceed 0), .start (.releaseReservation 7), .step 1 (.proceed 0),
    .step 0 (.proceed 0), .step 2 (.proceed 0), .step 1 (.proceed 0), .step 2 (.proceed 0),
    .step 2 (.proceed 0), .step 2 (.proceed 0), .step 2 (.proceed 0)]

theorem seat_ledger_sample : ∃ pool : FlightPool,
    service.run (Pool.initial (State.ofRows sampleRows)) sampleEvents = some pool ∧
      pool.shared.journal = [⟨1, 7, -3⟩, ⟨1, 7, 3⟩] ∧ SeatLedger sampleRows pool := by
  have hrun : (service.run (Pool.initial (State.ofRows sampleRows)) sampleEvents).isSome := by
    decide
  refine ⟨_, (Option.some_get hrun).symm, by decide +revert, ?_⟩
  exact (seat_ledger sampleRows sampleRows_schema _
    (Service.Steps.of_run sampleEvents (Option.some_get hrun).symm)).1

end SoaHomework.FlightService
