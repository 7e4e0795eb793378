import SoaHomework.FlightLedger
import SoaHomework.LockWaits

/-!
# Freedom from deadlock

ReserveSeats locks the flight and then touches reservations, ReleaseReservation
locks the reservation and then the flight. What each transaction holds at each
of its statements orders them all the same: a transaction that waits to begin
holds nothing, one that waits for a flight holds a reservation only, and one
whose insertion waits holds a flight only, for which nobody who holds a booking
waits.
-/

namespace SoaHomework.FlightService

open StatementProgram

/-- The lock that a statement of transaction `i` needs to be executed. -/
def lockOf (i : Nat) (s : State) : Statement → Option (Key ⊕ Uuid)
  | .selectFlightForUpdate flightID => s.db.rowLock i (.flight flightID)
  | .selectReservation _ => none
  | .changeSeats _ flightID => s.db.rowLock i (.flight flightID)
  | .insertReservation flightID bookingID seatCount =>
      if (⟨flightID, bookingID, seatCount, .active⟩ : Reservation).checks = true ∧
          (s.db.read i (.flight flightID)).isSome ∧
          (s.db.view i).entries.any (fun entry =>
            bookingIndex entry.1 entry.2 == some bookingID) = false then
        some (.inr bookingID)
      else none
  | .selectReservationForUpdate bookingID =>
      (findReservation (s.db.view i) bookingID).bind fun (id, _) =>
        s.db.rowLock i (.reservation id)
  | .markReleased id => s.db.rowLock i (.reservation id)
  | .commit => none
  | .selectFlight _ => none

/-- Transaction `j` keeps the statement of transaction `i` from being executed. -/
def Blocks (s : State) (j i : Nat) (statement : Statement) : Prop :=
  ∃ l, lockOf i s statement = some l ∧ s.db.Withholds j i l

/-- Request `i` is at a statement that needs a lock which request `j` holds. -/
def WaitsFor (pool : FlightPool) (i j : Nat) : Prop :=
  ∃ request statement next, pool.Runs i request (.step statement next) ∧
    Blocks pool.shared j i statement

/-- The request that request `i` waits for, computed. -/
def blocker (pool : FlightPool) (i : Nat) : Option Nat :=
  match pool.program? i with
  | some (.step statement _) =>
      ((lockOf i pool.shared statement).bind pool.shared.db.locks).filter fun j => decide (i ≠ j)
  | _ => none

theorem waitsFor_of_blocker {pool : FlightPool} {i j : Nat} (h : blocker pool i = some j) :
    WaitsFor pool i j := by
  unfold blocker at h
  split at h
  · rename_i statement next hprogram
    obtain ⟨request, hruns⟩ := Service.program?_eq_some.mp hprogram
    simp only [Option.filter_eq_some_iff, Option.bind_eq_some_iff, decide_eq_true_eq] at h
    obtain ⟨⟨l, hlock, hheld⟩, hne⟩ := h
    exact ⟨request, statement, next, hruns, l, hlock, hheld, hne⟩
  · cases h

private theorem exists_blocks {s : State} {i : Nat} {statement : Statement} :
    (∃ j, Blocks s j i statement) ↔
      ∃ l j, lockOf i s statement = some l ∧ s.db.Withholds j i l :=
  ⟨fun ⟨j, l, hl, hj⟩ => ⟨l, j, hl, hj⟩, fun ⟨l, j, hl, hj⟩ => ⟨j, l, hl, hj⟩⟩

/-- A statement for which `gen_random_uuid()` gives an unused key cannot be
    executed exactly when another transaction blocks it. -/
theorem proceed_eq_none {i : Nat} {generated : Uuid} {s : State} {statement : Statement}
    (hfresh : (.reservation generated : Key) ∉ s.db.rows)
    (hfree : s.db.locks (.inl (.reservation generated)) = none) :
    proceed i generated s statement = none ↔ ∃ j, Blocks s j i statement := by
  rw [exists_blocks]
  cases statement with
  | selectFlightForUpdate flightID =>
      simp only [proceed, lockOf, Option.map_eq_none_iff, RowStore.selectForUpdate_eq_none]
  | selectReservation bookingID => simp [proceed, lockOf]
  | changeSeats change flightID =>
      simp only [proceed, lockOf, Option.map_eq_none_iff, RowStore.update_eq_none]
  | insertReservation flightID bookingID seatCount =>
      simp only [proceed, lockOf]
      by_cases hchecks : (⟨flightID, bookingID, seatCount, .active⟩ : Reservation).checks = true
      · by_cases hflight : (s.db.read i (.flight flightID)).isSome
        · simp only [hchecks, Bool.true_eq_false, if_false, hflight,
            Option.isNone_iff_eq_none, Option.ne_none_iff_isSome.mpr hflight,
            Option.map_eq_none_iff, RowStore.insert_eq_none hfresh hfree, true_and,
            Option.ite_none_right_eq_some, Option.some.injEq]
          constructor
          · rintro ⟨hunseen, j, hj⟩
            exact ⟨_, j, ⟨hunseen, rfl⟩, hj⟩
          · rintro ⟨l, j, ⟨hunseen, rfl⟩, hj⟩
            exact ⟨hunseen, j, hj⟩
        · rw [Option.not_isSome_iff_eq_none] at hflight
          simp [hchecks, hflight]
      · simp [hchecks]
  | selectReservationForUpdate bookingID =>
      simp only [proceed, lockOf]
      cases hfound : findReservation (s.db.view i) bookingID with
      | none => simp
      | some found =>
          obtain ⟨id, r⟩ := found
          simp only [Option.map_eq_none_iff, RowStore.selectForUpdate_eq_none, Option.bind_some]
  | markReleased id =>
      simp only [proceed, lockOf, Option.map_eq_none_iff, RowStore.update_eq_none]
  | commit => simp [proceed, lockOf]
  | selectFlight flightID => simp [proceed, lockOf]

/-! ## What a transaction holds at each statement -/

/-- The locks of a transaction when it comes to a statement that may wait. -/
def Holding (i : Nat) (s : State) : Statement → Prop
  | .selectFlightForUpdate _ => ∀ l, s.db.locks l ≠ some i
  | .selectReservationForUpdate _ => ∀ l, s.db.locks l ≠ some i
  | .changeSeats _ flightID => s.db.locks (.inl (.flight flightID)) = some i ∨
      ∀ l, s.db.locks l = some i → ∃ id, l = .inl (.reservation id)
  | .insertReservation flightID _ _ =>
      ∀ l, s.db.locks l = some i → l = .inl (.flight flightID)
  | .markReleased id => s.db.locks (.inl (.reservation id)) = some i
  | _ => True

/-- The order in which transactions wait. -/
def waitingRank : Statement → Nat
  | .selectFlightForUpdate _ => 2
  | .selectReservationForUpdate _ => 2
  | .changeSeats _ _ => 1
  | _ => 0

theorem rowLock_eq_some {s : State} {i : Nat} {k : Key} {l : Key ⊕ Uuid}
    (h : s.db.rowLock i k = some l) : l = .inl k := by
  simp only [RowStore.rowLock, Option.map_eq_some_iff] at h
  obtain ⟨_, _, rfl⟩ := h
  rfl

/-- A flight is waited for before it is written. -/
theorem waitingRank_of_flight {s : State} {i : Nat} {flightID : Uuid} {statement : Statement}
    (hlock : lockOf i s statement = some (.inl (.flight flightID))) :
    0 < waitingRank statement := by
  cases statement with
  | selectFlightForUpdate flightID' => exact Nat.two_pos
  | changeSeats change flightID' => exact Nat.one_pos
  | selectReservationForUpdate bookingID => exact Nat.two_pos
  | markReleased id => cases rowLock_eq_some hlock
  | insertReservation flightID' bookingID seatCount =>
      simp only [lockOf, Option.ite_none_right_eq_some, Option.some.injEq] at hlock
      cases hlock.2
  | selectReservation bookingID => cases hlock
  | commit => cases hlock
  | selectFlight flightID' => cases hlock

/-- A reservation is waited for only by a transaction that has nothing yet. -/
theorem waitingRank_of_reservation {s : State} {i j : Nat} {id : Uuid} {statement : Statement}
    (hholding : Holding i s statement)
    (hlock : lockOf i s statement = some (.inl (.reservation id)))
    (hblocked : s.db.Withholds j i (.inl (.reservation id))) : waitingRank statement = 2 := by
  cases statement with
  | selectFlightForUpdate flightID => rfl
  | selectReservationForUpdate bookingID => rfl
  | changeSeats change flightID => cases rowLock_eq_some hlock
  | markReleased id' =>
      cases rowLock_eq_some hlock
      exact absurd (Option.some.inj (hholding.symm.trans hblocked.1)) hblocked.2
  | insertReservation flightID bookingID seatCount =>
      simp only [lockOf, Option.ite_none_right_eq_some, Option.some.injEq] at hlock
      cases hlock.2
  | selectReservation bookingID => cases hlock
  | commit => cases hlock
  | selectFlight flightID => cases hlock

/-- A transaction that blocks another and is itself blocked waits at a lower
    rank. -/
theorem waitingRank_lt {s : State} {i j k : Nat} {statement statement' : Statement}
    (hi : Holding i s statement) (hj : Holding j s statement')
    (hblocks : Blocks s j i statement) (hblocked : Blocks s k j statement') :
    waitingRank statement' < waitingRank statement := by
  obtain ⟨l, hl, hwithheld⟩ := hblocks
  obtain ⟨l', hl', hk, hne⟩ := hblocked
  have hheld : s.db.locks l = some j := hwithheld.1
  cases statement' with
  | selectFlightForUpdate flightID => exact absurd hheld (hj l)
  | selectReservationForUpdate bookingID => exact absurd hheld (hj l)
  | markReleased id =>
      cases rowLock_eq_some hl'
      exact absurd (Option.some.inj (hj.symm.trans hk)) hne
  | changeSeats change flightID =>
      cases rowLock_eq_some hl'
      rcases hj with hown | honly
      · exact absurd (Option.some.inj (hown.symm.trans hk)) hne
      · obtain ⟨id, rfl⟩ := honly l hheld
        rw [waitingRank_of_reservation hi hl hwithheld]
        exact Nat.one_lt_two
  | insertReservation flightID bookingID seatCount =>
      obtain rfl := hj l hheld
      exact waitingRank_of_flight hl
  | selectReservation bookingID => cases hl'
  | commit => cases hl'
  | selectFlight flightID => cases hl'

/-! ## The discipline of the locks -/

/-- Transaction `i` holds the same locks in both states. -/
def SameLocks (i : Nat) (s s' : State) : Prop :=
  ∀ l, s'.db.locks l = some i ↔ s.db.locks l = some i

/-- A statement leaves the locks of the other transactions alone. -/
theorem execute_sameLocks {i j : Nat} {statement : Statement} {choice : Choice} {s s' : State}
    {answer : Answer statement} (hij : i ≠ j)
    (h : execute i statement choice s = some (answer, s')) : SameLocks j s s' := by
  by_cases hcommit : statement = .commit
  · subst hcommit
    rcases execute_commit h with rfl | hdb
    · exact fun l => Iff.rfl
    · intro l
      rw [hdb]
      exact RowStore.finish_locks hij l
  · exact ((execute_access h hcommit).1.keeps hij).locks

theorem changeStatus_locks {change : StatusChange} {s s' : State}
    (h : changeStatus change s = some s') : s'.db.locks = s.db.locks := by
  simp only [changeStatus, Option.map_eq_some_iff] at h
  obtain ⟨db, hwrite, rfl⟩ := h
  obtain ⟨_, _, _, rfl⟩ := RowStore.overwrite_cases hwrite
  rfl

/-- Each transaction relies on its locks staying its own, and knows at each
    statement what it holds. -/
def lockDiscipline : Discipline Statement StoreError Reservation Request State where
  inv _ := True
  rely _ i s s' := SameLocks i s s'
  guarantee _ i s s' := ∀ j, i ≠ j → SameLocks j s s'
  unused i s := s.db.Owns i ∅
  compatible _ _ := True
  permitted _ _ _ _ := True
  known _ i statement s := Holding i s statement
  answer _ _ _ _ := True

variable {request : Request} {i : Nat}

/-- What a transaction owns is known until its next statement. -/
theorem stable_owns (owned : Set (Key ⊕ Uuid)) :
    lockDiscipline.Stable request i fun s => s.db.Owns i owned :=
  fun _ _ _ hsame howns l => (hsame l).trans (howns l)

theorem triple_query {pre : State → Prop} {statement : Statement}
    (middle : Result statement → State → Prop)
    {next : Result statement → Program Statement Answer StoreError Reservation}
    (hstable : lockDiscipline.Stable request i pre)
    (hknown : ∀ s, pre s → Holding i s statement)
    (hexec : ∀ s generated result s', pre s →
      proceed i generated s statement = some (.ok result, s') → middle result s')
    (hnext : ∀ result, lockDiscipline.Triple service request i (middle result) (next result)
      fun _ _ => True) :
    lockDiscipline.Triple service request i pre (query statement >>= next) fun _ _ => True := by
  apply Discipline.Triple.step (fun answer s => ∀ result, answer = .ok result → middle result s)
    hstable
  · intro s _ hpre
    refine ⟨hknown s hpre, fun _ choice answer s' hrun => ⟨trivial, ?_, ?_⟩⟩
    · exact fun j hij => execute_sameLocks hij hrun
    · rintro result rfl
      cases choice with
      | failure =>
          simp only [service, execute, Option.some.injEq, Prod.mk.injEq] at hrun
          cases hrun.1
      | proceed generated => exact hexec s generated result s' hpre hrun
  · intro answer
    cases answer with
    | ok result => exact (hnext result).weaken (middle result) fun s _ h => h result rfl
    | error error => exact Discipline.Triple.fail fun _ _ _ => trivial

theorem triple_commit {pre : State → Prop} {value : Reservation}
    (hstable : lockDiscipline.Stable request i pre) :
    lockDiscipline.Triple service request i pre (query .commit >>= fun _ => .ret value)
      fun _ _ => True :=
  triple_query (fun _ _ => True) hstable (fun _ _ => trivial) (fun _ _ _ _ _ _ => trivial)
    fun _ => Discipline.Triple.ret fun _ _ _ => trivial

theorem triple_raiseIf {pre : State → Prop} {failed : Bool} {error : StoreError}
    {next : Unit → Program Statement Answer StoreError Reservation}
    (hnext : lockDiscipline.Triple service request i pre (next ()) fun _ _ => True) :
    lockDiscipline.Triple service request i pre (Program.raiseIf failed error >>= next)
      fun _ _ => True :=
  Discipline.Triple.raiseIf (fun _ _ _ _ => trivial) fun _ => hnext

theorem triple_reserveSeats (flightID bookingID : Uuid) (seatCount : Int) :
    lockDiscipline.Triple service request i (lockDiscipline.unused i)
      (Store.reserveSeats flightID bookingID seatCount) fun _ _ => True := by
  have hflight : lockDiscipline.Stable request i fun s =>
      s.db.Owns i {.inl (.flight flightID)} := stable_owns _
  apply triple_query (fun result s =>
    result = none ∨ s.db.Owns i {.inl (.flight flightID)}) (stable_owns ∅)
  · exact fun s howns l hl => (howns l).mp hl
  · intro s generated result s' howns hrun
    simp only [proceed, Option.map_eq_some_iff, Prod.mk.injEq, Except.ok.injEq] at hrun
    obtain ⟨⟨row, db⟩, hselect, rfl, rfl⟩ := hrun
    rcases RowStore.selectForUpdate_owns hselect howns with hnone | howns'
    · exact Or.inl (by rw [hnone]; rfl)
    · exact Or.inr (by rwa [Set.empty_union] at howns')
  intro found
  cases found with
  | none => exact Discipline.Triple.fail fun _ _ _ => trivial
  | some row =>
      apply Discipline.Triple.weaken fun s => s.db.Owns i {.inl (.flight flightID)}
      swap
      · exact fun s _ h => h.resolve_left (by simp)
      apply triple_raiseIf
      apply triple_raiseIf
      apply triple_query (fun _ s => s.db.Owns i {.inl (.flight flightID)}) hflight
      · exact fun _ _ => trivial
      · intro s generated result s' howns hrun
        simp only [proceed, Option.some.injEq, Prod.mk.injEq] at hrun
        exact hrun.2 ▸ howns
      intro existing
      apply triple_raiseIf
      apply triple_query (fun _ s => s.db.Owns i {.inl (.flight flightID)}) hflight
      · exact fun s howns => Or.inl ((howns _).mpr rfl)
      · intro s generated result s' howns hrun
        simp only [proceed, Option.map_eq_some_iff, Prod.mk.injEq] at hrun
        obtain ⟨⟨written, db⟩, hupdate, _, rfl⟩ := hrun
        rcases RowStore.update_owns hupdate howns with howns' | howns'
        · exact howns'
        · rwa [Set.union_self] at howns'
      intro _
      apply triple_query (fun _ _ => True) hflight
      · exact fun s howns l hl => (howns l).mp hl
      · exact fun _ _ _ _ _ _ => trivial
      · exact fun r => triple_commit fun _ _ _ _ _ => trivial

theorem triple_releaseReservation (bookingID : Uuid) :
    lockDiscipline.Triple service request i (lockDiscipline.unused i)
      (Store.releaseReservation bookingID) fun _ _ => True := by
  apply triple_query (fun result s =>
    result = none ∨ ∃ id r, result = some (id, r) ∧ s.db.Owns i {.inl (.reservation id)})
    (stable_owns ∅)
  · exact fun s howns l hl => (howns l).mp hl
  · intro s generated result s' howns hrun
    simp only [proceed] at hrun
    split at hrun
    · simp only [Option.some.injEq, Prod.mk.injEq, Except.ok.injEq] at hrun
      exact Or.inl hrun.1.symm
    · rename_i id r _
      simp only [Option.map_eq_some_iff, Prod.mk.injEq, Except.ok.injEq] at hrun
      obtain ⟨⟨row, db⟩, hselect, rfl, rfl⟩ := hrun
      rcases RowStore.selectForUpdate_owns hselect howns with rfl | howns'
      · exact Or.inl rfl
      · cases row with
        | none => exact Or.inl rfl
        | some r' => exact Or.inr ⟨id, r', rfl, by rwa [Set.empty_union] at howns'⟩
  intro found
  cases found with
  | none => exact Discipline.Triple.fail fun _ _ _ => trivial
  | some row =>
      obtain ⟨id, r⟩ := row
      apply Discipline.Triple.weaken fun s => s.db.Owns i {.inl (.reservation id)}
      swap
      · rintro s _ (hnone | ⟨id', r', hfound, howns⟩)
        · cases hnone
        · cases hfound
          exact howns
      apply triple_raiseIf
      apply triple_query (fun _ s => s.db.locks (.inl (.reservation id)) = some i)
        (stable_owns _)
      · exact fun s howns => Or.inr fun l hl => ⟨id, (howns l).mp hl⟩
      · intro s generated result s' howns hrun
        simp only [proceed, Option.map_eq_some_iff, Prod.mk.injEq] at hrun
        obtain ⟨⟨written, db⟩, hupdate, _, rfl⟩ := hrun
        rcases RowStore.update_owns hupdate howns with howns' | howns'
        · exact (howns' _).mpr rfl
        · exact (howns' _).mpr (Or.inl rfl)
      intro _
      apply triple_query (fun _ _ => True)
      · exact fun s s' _ hsame hlock => (hsame _).mpr hlock
      · exact fun s hlock => hlock
      · exact fun _ _ _ _ _ _ => trivial
      · exact fun r => triple_commit fun _ _ _ _ _ => trivial

theorem lockDiscipline_sound : lockDiscipline.Sound service where
  rely_refl _ _ _ _ := Iff.rfl
  rely_trans _ _ _ _ _ h h' l := (h' l).trans (h l)
  guarantee_rely _ _ _ j _ _ hij _ _ h := h j hij
  guarantee_unused _ _ j _ _ hij h howns l := (h j hij l).trans (howns l)
  guarantee_answer _ _ _ _ _ _ _ _ _ _ _ := trivial
  close_inv _ _ _ := trivial
  close_guarantee _ i s _ j hij l := by
    show (s.db.rollback i).locks l = some j ↔ s.db.locks l = some j
    exact RowStore.finish_locks hij l
  close_answer _ _ _ _ _ _ := trivial
  answer_stable _ _ _ _ _ _ _ _ := trivial
  outside_inv _ _ _ _ _ := trivial
  outside_rely change s s' h _ _ i l := by
    rw [changeStatus_locks h]
  outside_unused change s s' h i howns l := by
    rw [changeStatus_locks h]
    exact howns l
  handler_safe request i := by
    cases request with
    | reserveSeats flightID bookingID seatCount positive =>
        exact triple_reserveSeats flightID bookingID seatCount
    | releaseReservation bookingID => exact triple_releaseReservation bookingID

/-! ## Every run -/

/-- What a request holds at the statement it has come to, in any run. -/
theorem holding_of_steps {rows₀ : Rows} {pool : FlightPool}
    (hsteps : service.Steps Service.anyStep (Pool.initial (State.ofRows rows₀)) pool)
    {request : Request} {statement : Statement}
    {next : Answer statement → Program Statement Answer StoreError Reservation}
    (hruns : pool.Runs i request (.step statement next)) : Holding i pool.shared statement := by
  have hallowed :
      service.Steps lockDiscipline.Allowed (Pool.initial (State.ofRows rows₀)) pool := by
    refine hsteps.mono fun _ event _ => ?_
    cases event with
    | start request => exact fun _ _ _ _ => ⟨trivial, trivial⟩
    | step i choice => exact fun _ _ _ _ => trivial
    | stop i => trivial
    | outside change => trivial
  have hinitial : lockDiscipline.Holds service (Pool.initial (State.ofRows rows₀)) := by
    refine Discipline.holds_initial trivial fun i l => ?_
    simp [State.ofRows, RowStore.ofRows]
  exact (Discipline.holds_steps lockDiscipline_sound hallowed hinitial).known
    lockDiscipline_sound hruns

/-- The rank at which request `i` waits. -/
def rankOf (pool : FlightPool) (i : Nat) : Nat :=
  match pool.program? i with
  | some (.step statement _) => waitingRank statement
  | _ => 0

theorem rankOf_of_runs {pool : FlightPool} {request : Request} {statement : Statement}
    {next : Answer statement → Program Statement Answer StoreError Reservation}
    (h : pool.Runs i request (.step statement next)) : rankOf pool i = waitingRank statement := by
  have hprogram : pool.program? i = some (.step statement next) :=
    Service.program?_eq_some.mpr ⟨request, h⟩
  simp only [rankOf, hprogram]

/-- In no reachable state does a request wait for itself through a chain of
    requests each waiting for a lock held by the next. -/
theorem deadlock_free (rows₀ : Rows) (pool : FlightPool)
    (hsteps : service.Steps Service.anyStep (Pool.initial (State.ofRows rows₀)) pool) (i : Nat) :
    ¬ Relation.TransGen (WaitsFor pool) i i := by
  apply Relation.acyclic_of_rank (rankOf pool)
  rintro i j k ⟨request, statement, next, hi, hblocks⟩ ⟨request', statement', next', hj, hblocked⟩
  rw [rankOf_of_runs hi, rankOf_of_runs hj]
  exact waitingRank_lt (holding_of_steps hsteps hi) (holding_of_steps hsteps hj) hblocks hblocked

/-- Two flights and a reservation of the first. -/
def waitingRows : Rows :=
  ((∅ : Rows).insert (.flight 1) sampleFlight).insert (.flight 2) sampleFlight |>.insert
    (.reservation 20) ⟨1, 7, 2, .active⟩

/-- Two releases of booking 7 behind a reservation that waits for the booking
    of another one. -/
def waitingEvents : List (Event Request Choice StatusChange) :=
  [.start (.reserveSeats 2 9 1 (by decide)), .start (.reserveSeats 1 9 1 (by decide)),
    .start (.releaseReservation 7), .start (.releaseReservation 7), .step 0 (.proceed 0),
    .step 0 (.proceed 0), .step 1 (.proceed 0), .step 1 (.proceed 0), .step 1 (.proceed 0),
    .step 0 (.proceed 0), .step 0 (.proceed 21), .step 2 (.proceed 0)]

theorem deadlock_free_sample : ∃ pool : FlightPool,
    service.run (Pool.initial (State.ofRows waitingRows)) waitingEvents = some pool ∧
      WaitsFor pool 3 2 ∧ WaitsFor pool 2 1 ∧ WaitsFor pool 1 0 ∧
      ∀ i, ¬ Relation.TransGen (WaitsFor pool) i i := by
  obtain ⟨pool, hrun, hblocked⟩ := Service.exists_run
    (fun pool : FlightPool => blocker pool 3 = some 2 ∧ blocker pool 2 = some 1 ∧
      blocker pool 1 = some 0)
    (show (service.run (Pool.initial (State.ofRows waitingRows)) waitingEvents).any _ = true by
      decide +kernel)
  obtain ⟨h₃, h₂, h₁⟩ := hblocked
  refine ⟨pool, hrun, waitsFor_of_blocker h₃, waitsFor_of_blocker h₂, waitsFor_of_blocker h₁, ?_⟩
  exact deadlock_free waitingRows pool (Service.Steps.of_run waitingEvents hrun)

end SoaHomework.FlightService
