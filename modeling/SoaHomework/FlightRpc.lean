import SoaHomework.FlightServer

/-!
# Attempts of the flight service's methods

One attempt of a method call, executed as a whole by the flight service: the
server's program runs alone on the committed rows. The results say what an
attempt may answer and which step of the seat ledger it is.
-/

namespace SoaHomework.FlightService

open StatementProgram Grpc

/-- A method call with canonical ids. -/
inductive Rpc where
  | getFlight (flightID : Uuid)
  | reserveSeats (flightID bookingID : Uuid) (seatCount : Int)
  | releaseReservation (bookingID : Uuid)
deriving DecidableEq, Repr

@[reducible] def Rpc.Reply : Rpc → Type
  | .getFlight _ => Flight
  | .reserveSeats _ _ _ => Reservation
  | .releaseReservation _ => Reservation

/-- The committed rows and the history of the seats. -/
structure Ledger where
  rows : Rows
  journal : List SeatChange

/-- What the environment of an execution decides: the key that is generated,
    the statements that fail and what the cache has for a flight. -/
structure Execution where
  generated : Uuid
  fails : Statement → Bool
  hit : Option Flight

def Rpc.program (rpc : Rpc) (how : Execution) : ServerProgram rpc.Reply :=
  match rpc with
  | .getFlight flightID => Server.getFlight how.hit (.uuid flightID)
  | .reserveSeats flightID bookingID seatCount =>
      Server.reserveSeats true ⟨.uuid flightID, .uuid bookingID, seatCount⟩
  | .releaseReservation bookingID => Server.releaseReservation true ⟨.uuid bookingID⟩

def Ledger.rest (ledger : Ledger) : State := ⟨RowStore.ofRows ledger.rows, ledger.journal⟩

def Rpc.run (rpc : Rpc) (how : Execution) (ledger : Ledger) :
    Option (Except RpcError rpc.Reply × Ledger) :=
  ((rpc.program how).alone (executeAlone 0 how.generated how.fails) ledger.rest).map
    fun (result, s) => (result, ⟨s.db.rows, s.journal⟩)

def Ledger.changeStatus (change : StatusChange) (ledger : Ledger) : Option Ledger :=
  (FlightService.changeStatus change ledger.rest).map fun s => ⟨s.db.rows, s.journal⟩

/-! ## Statements that run alone -/

variable {rows₀ : Rows} {i : Nat} {generated : Uuid} {fails : Statement → Bool} {s s' : State}

/-- A statement that is executed fails when its environment says so, and has an
    answer of its own otherwise. -/
theorem executeAlone_cases {statement : Statement} {answer : Answer statement}
    (h : executeAlone i generated fails statement s = some (answer, s')) :
    (fails statement = true ∧ answer = .error .failure ∧ s' = s) ∨
      (fails statement = false ∧ proceed i generated s statement = some (answer, s')) := by
  cases hfails : fails statement with
  | true =>
      simp only [executeAlone, hfails, if_true, execute, Option.some.injEq, Prod.mk.injEq] at h
      exact Or.inl ⟨rfl, h.1.symm, h.2.symm⟩
  | false =>
      simp only [executeAlone, hfails, Bool.false_eq_true, if_false, execute] at h
      exact Or.inr ⟨rfl, h⟩

/-- How a query that runs alone continues when it is not a commit. -/
theorem alone_query_cases {β : Type} {statement : Statement}
    {next : Result statement → Program Statement Answer StoreError β}
    {result : Except StoreError β} (hs : s.db.Consistent bookingIndex)
    (hcommit : statement ≠ .commit)
    (h : (query statement >>= next).alone (executeAlone i generated fails) s =
      some (result, s')) :
    (∃ value s₁, fails statement = false ∧
      proceed i generated s statement = some (.ok value, s₁) ∧
      s₁.db.Consistent bookingIndex ∧ s₁.db.rows = s.db.rows ∧ s₁.journal = s.journal ∧
      (next value).alone (executeAlone i generated fails) s₁ = some (result, s')) ∨
    ∃ error, result = .error (.db error) ∧ s'.db.rows = s.db.rows ∧ s'.journal = s.journal ∧
      (fails statement = true ∨
        proceed i generated s statement = some (.error error, s')) := by
  have hkeeps : ∀ answer s₁, executeAlone i generated fails statement s = some (answer, s₁) →
      s₁.db.Consistent bookingIndex ∧ s₁.db.rows = s.db.rows ∧ s₁.journal = s.journal := by
    intro answer s₁ hexec
    obtain ⟨hframe, hsame⟩ := execute_frame hexec hs
    exact ⟨hframe.consistent, hsame hcommit⟩
  rw [alone_query] at h
  cases hexec : executeAlone i generated fails statement s with
  | none => simp [hexec] at h
  | some outcome =>
      obtain ⟨answer, s₁⟩ := outcome
      obtain ⟨hs₁, hrows, hjournal⟩ := hkeeps answer s₁ hexec
      cases answer with
      | ok value =>
          simp only [hexec] at h
          rcases executeAlone_cases hexec with ⟨_, herror, _⟩ | ⟨hfails, hproceed⟩
          · cases herror
          · exact Or.inl ⟨value, s₁, hfails, hproceed, hs₁, hrows, hjournal, h⟩
      | error error =>
          simp only [hexec, Option.some.injEq, Prod.mk.injEq] at h
          obtain ⟨rfl, rfl⟩ := h
          refine Or.inr ⟨error, rfl, hrows, hjournal, ?_⟩
          rcases executeAlone_cases hexec with ⟨hfails, _, _⟩ | ⟨_, hproceed⟩
          · exact Or.inl hfails
          · exact Or.inr hproceed

/-- How a transaction that runs alone ends with its commit. -/
theorem alone_commit_cases {α : Type} {value : α} {result : Except StoreError α}
    (h : (query .commit >>= fun _ => .ret value).alone (executeAlone i generated fails) s =
      some (result, s')) :
    (fails .commit = false ∧ result = .ok value ∧ s'.db.rows = s.db.view i ∧
        s'.journal = s.journal ++ seatChanges s.db i) ∨
      (fails .commit = true ∧ result = .error (.db .failure) ∧ s' = s) := by
  rw [alone_query] at h
  cases hfails : fails .commit with
  | true =>
      simp only [executeAlone, hfails, if_true, execute, Option.some.injEq,
        Prod.mk.injEq] at h
      exact Or.inr ⟨rfl, h.1.symm, h.2.symm⟩
  | false =>
      simp only [executeAlone, hfails, Bool.false_eq_true, if_false, execute, proceed,
        Program.alone_ret, Option.some.injEq, Prod.mk.injEq] at h
      obtain ⟨rfl, rfl⟩ := h
      exact Or.inl ⟨rfl, rfl, rfl, rfl⟩

theorem alone_raiseIf {β : Type} {failed : Bool} {error : StoreError}
    {next : Unit → Program Statement Answer StoreError β} {result : Except StoreError β}
    (h : (Program.raiseIf failed error >>= next).alone (executeAlone i generated fails) s =
      some (result, s')) :
    (failed = true ∧ result = .error error ∧ s' = s) ∨
      (failed = false ∧
        (next ()).alone (executeAlone i generated fails) s = some (result, s')) := by
  cases failed with
  | true =>
      simp only [Program.raiseIf, if_true, Program.fail_bind, Program.alone_fail,
        Option.some.injEq, Prod.mk.injEq] at h
      exact Or.inl ⟨rfl, h.1.symm, h.2.symm⟩
  | false => exact Or.inr ⟨rfl, h⟩

/-! ## What an attempt does -/

/-- The statements that a method executes when nothing stops it. -/
def Rpc.statements (rpc : Rpc) (rows : Rows) : List Statement :=
  match rpc with
  | .getFlight flightID => [.selectFlight flightID]
  | .reserveSeats flightID bookingID seatCount =>
      [.selectFlightForUpdate flightID, .selectReservation bookingID,
        .changeSeats (-seatCount) flightID, .insertReservation flightID bookingID seatCount,
        .commit]
  | .releaseReservation bookingID =>
      .selectReservationForUpdate bookingID ::
        match findReservation rows bookingID with
        | none => []
        | some (id, r) => [.changeSeats r.seatCount r.flightID, .markReleased id, .commit]

/-- The flight takes the booking: it is scheduled and has the seats. -/
def Rpc.accepted (rpc : Rpc) (rows : Rows) : Bool :=
  match rpc with
  | .reserveSeats flightID _ seatCount =>
      match (rows.lookup (.flight flightID) : Option Flight) with
      | none => false
      | some row =>
          decide (0 < seatCount) && row.status == .scheduled &&
            decide (seatCount ≤ row.availableSeats)
  | _ => true

/-- An attempt takes effect: none of its statements fails and the flight takes
    the booking. -/
def Rpc.effective (rpc : Rpc) (how : Execution) (ledger : Ledger) : Bool :=
  (rpc.statements ledger.rows).all (fun statement => !how.fails statement) &&
    rpc.accepted ledger.rows

/-- What an attempt of `ReserveSeats` answers and leaves. -/
inductive Reserving (flightID bookingID : Uuid) (seatCount : Int) (how : Execution)
    (ledger : Ledger) : Except RpcError Reservation → Ledger → Prop where
  | granted {id : Uuid} {row : Flight}
      (hrow : ledger.rows.lookup (.flight flightID) = some row)
      (hscheduled : row.status = .scheduled) (hpositive : 0 < seatCount)
      (havailable : seatCount ≤ row.availableSeats)
      (hid : ledger.rows.lookup (.reservation id) = none)
      (habsent : ∀ id (r : Reservation), ledger.rows.lookup (.reservation id) = some r →
        r.bookingID ≠ bookingID)
      (heffective : (Rpc.reserveSeats flightID bookingID seatCount).effective how ledger) :
      Reserving flightID bookingID seatCount how ledger
        (.ok ⟨flightID, bookingID, seatCount, .active⟩)
        ⟨(ledger.rows.insert (.flight flightID) (changeSeats (-seatCount) row)).insert
            (.reservation id) ⟨flightID, bookingID, seatCount, .active⟩,
          ledger.journal ++ [⟨flightID, bookingID, -seatCount⟩]⟩
  | existing {id : Uuid} {r : Reservation} {error : RpcError}
      (hr : ledger.rows.lookup (.reservation id) = some r) (hbooking : r.bookingID = bookingID)
      (hcode : error.code = .alreadyExists) :
      Reserving flightID bookingID seatCount how ledger (.error error) ledger
  | refused {error : RpcError} (hcode : error.code ≠ .alreadyExists)
      (hineffective :
        (Rpc.reserveSeats flightID bookingID seatCount).effective how ledger = false) :
      Reserving flightID bookingID seatCount how ledger (.error error) ledger

theorem effective_of_fails {rpc : Rpc} {how : Execution} {ledger : Ledger}
    (statement : Statement) (hmem : statement ∈ rpc.statements ledger.rows)
    (hfails : how.fails statement = true) : rpc.effective how ledger = false := by
  have hall : (rpc.statements ledger.rows).all (fun statement => !how.fails statement) =
      false := by
    rw [List.all_eq_false]
    exact ⟨statement, hmem, by simp [hfails]⟩
  rw [Rpc.effective, hall, Bool.false_and]

theorem effective_of_not_accepted {rpc : Rpc} {how : Execution} {ledger : Ledger}
    (h : rpc.accepted ledger.rows = false) : rpc.effective how ledger = false := by
  rw [Rpc.effective, h, Bool.and_false]

section Reserve

variable {ledger : Ledger} {how : Execution} {flightID bookingID : Uuid} {seatCount : Int}

theorem accepted_iff : (Rpc.reserveSeats flightID bookingID seatCount).accepted ledger.rows =
    true ↔ ∃ row : Flight, ledger.rows.lookup (.flight flightID) = some row ∧ 0 < seatCount ∧
      row.status = .scheduled ∧ seatCount ≤ row.availableSeats := by
  simp only [Rpc.accepted]
  cases (ledger.rows.lookup (.flight flightID) : Option Flight) with
  | none => simp
  | some row => simp [and_assoc]

/-- How the transaction of `ReserveSeats` ends on rows that nobody else uses. -/
inductive ReserveOutcome (flightID bookingID : Uuid) (seatCount : Int) (how : Execution)
    (ledger : Ledger) : Except StoreError Reservation → Ledger → Prop where
  | granted {id : Uuid} {row : Flight}
      (hrow : ledger.rows.lookup (.flight flightID) = some row)
      (hscheduled : row.status = .scheduled) (havailable : seatCount ≤ row.availableSeats)
      (hchecks : (changeSeats (-seatCount) row).checks = true)
      (hid : ledger.rows.lookup (.reservation id) = none)
      (habsent : ∀ id (r : Reservation), ledger.rows.lookup (.reservation id) = some r →
        r.bookingID ≠ bookingID)
      (hcalm : ∀ statement ∈ (Rpc.reserveSeats flightID bookingID seatCount).statements
        ledger.rows, how.fails statement = false) :
      ReserveOutcome flightID bookingID seatCount how ledger
        (.ok ⟨flightID, bookingID, seatCount, .active⟩)
        ⟨(ledger.rows.insert (.flight flightID) (changeSeats (-seatCount) row)).insert
            (.reservation id) ⟨flightID, bookingID, seatCount, .active⟩,
          ledger.journal ++ [⟨flightID, bookingID, -seatCount⟩]⟩
  | existing {id : Uuid} {r : Reservation}
      (hr : ledger.rows.lookup (.reservation id) = some r)
      (hbooking : r.bookingID = bookingID) :
      ReserveOutcome flightID bookingID seatCount how ledger (.error .alreadyExists) ledger
  | failed {statement : Statement} {error : StoreError} (herror : error ≠ .alreadyExists)
      (hmem : statement ∈ (Rpc.reserveSeats flightID bookingID seatCount).statements ledger.rows)
      (hfails : how.fails statement = true) :
      ReserveOutcome flightID bookingID seatCount how ledger (.error error) ledger
  | refused {error : StoreError} (herror : error ≠ .alreadyExists)
      (hrefused : ¬ ∃ row : Flight, ledger.rows.lookup (.flight flightID) = some row ∧
        row.status = .scheduled ∧ seatCount ≤ row.availableSeats ∧
        (changeSeats (-seatCount) row).checks = true) :
      ReserveOutcome flightID bookingID seatCount how ledger (.error error) ledger

/-- The transaction of `ReserveSeats`, executed on rows that nobody else uses. -/
theorem reserveOutcome_of_alone (htables : Tables ledger.rows) (hpositive : 0 < seatCount)
    {result : Except StoreError Reservation} {s' : State}
    (h : (Store.reserveSeats flightID bookingID seatCount).alone
      (executeAlone 0 how.generated how.fails) ledger.rest = some (result, s')) :
    ReserveOutcome flightID bookingID seatCount how ledger result ⟨s'.db.rows, s'.journal⟩ := by
  have hfailed : ∀ {statement error} {s' : State}, s'.db.rows = ledger.rows →
      s'.journal = ledger.journal →
      statement ∈ (Rpc.reserveSeats flightID bookingID seatCount).statements ledger.rows →
      how.fails statement = true → ReserveOutcome flightID bookingID seatCount how ledger
        (.error (.db error)) ⟨s'.db.rows, s'.journal⟩ := by
    intro statement error s' hrows hjournal hmem hfails
    rw [hrows, hjournal]
    exact .failed (by simp) hmem hfails
  have hrefused : ∀ {error} {s' : State}, s'.db.rows = ledger.rows →
      s'.journal = ledger.journal → error ≠ .alreadyExists →
      (¬ ∃ row : Flight, ledger.rows.lookup (.flight flightID) = some row ∧
        row.status = .scheduled ∧ seatCount ≤ row.availableSeats ∧
        (changeSeats (-seatCount) row).checks = true) →
      ReserveOutcome flightID bookingID seatCount how ledger (.error error)
        ⟨s'.db.rows, s'.journal⟩ := by
    intro error s' hrows hjournal herror hnot
    rw [hrows, hjournal]
    exact .refused herror hnot
  rw [Store.reserveSeats] at h
  rcases alone_query_cases htables.consistent (by simp) h with
    ⟨value, s₁, hf₁, hselect, hs₁, hrows₁, hjournal₁, h₁⟩ | ⟨error, rfl, hrows, hjournal, hwhy⟩
  swap
  · rcases hwhy with hfails | hselect
    · exact hfailed hrows hjournal (by simp [Rpc.statements]) hfails
    · rcases proceed_selectFlightForUpdate (RowStore.idle_ofRows _ _) hselect with
        ⟨hanswer, _⟩ | ⟨_, hanswer, _⟩
      · cases hanswer
      · cases hanswer
  have hledger₁ : s₁.db.rows = ledger.rows := hrows₁
  have hhistory₁ : s₁.journal = ledger.journal := hjournal₁
  rcases proceed_selectFlightForUpdate (RowStore.idle_ofRows _ _) hselect with
    ⟨hvalue, hnone⟩ | ⟨row, hvalue, hlocked⟩
  · obtain rfl := Except.ok.inj hvalue
    obtain ⟨rfl, rfl⟩ := Prod.mk.inj (Option.some.inj h₁)
    refine hrefused hledger₁ hhistory₁ (by simp) ?_
    rintro ⟨row, hrow, _⟩
    cases hnone.symm.trans hrow
  obtain rfl := Except.ok.inj hvalue
  have hrow : ledger.rows.lookup (.flight flightID) = some row := hledger₁ ▸ hlocked.2.2
  have hunfit : ¬ (row.status = .scheduled ∧ seatCount ≤ row.availableSeats ∧
        (changeSeats (-seatCount) row).checks = true) →
      ¬ ∃ row : Flight, ledger.rows.lookup (.flight flightID) = some row ∧
        row.status = .scheduled ∧ seatCount ≤ row.availableSeats ∧
        (changeSeats (-seatCount) row).checks = true := by
    rintro hnot ⟨row', hrow', hfits⟩
    obtain rfl := Option.some.inj (hrow.symm.trans hrow')
    exact hnot hfits
  rcases alone_raiseIf h₁ with ⟨hstatus, rfl, rfl⟩ | ⟨hstatus, h₂⟩
  · refine hrefused hledger₁ hhistory₁ (by simp) (hunfit ?_)
    rintro ⟨hscheduled, _⟩
    simp [hscheduled] at hstatus
  rcases alone_raiseIf h₂ with ⟨hseats, rfl, rfl⟩ | ⟨hseats, h₃⟩
  · refine hrefused hledger₁ hhistory₁ (by simp) (hunfit ?_)
    rintro ⟨_, havailable, _⟩
    simp only [decide_eq_true_eq] at hseats
    omega
  have hscheduled : row.status = .scheduled := by simpa using hstatus
  have havailable : seatCount ≤ row.availableSeats := by simpa using hseats
  rcases alone_query_cases hs₁ (by simp) h₃ with
    ⟨existing, s₂, hf₂, hexisting, hs₂, hrows₂, hjournal₂, h₄⟩ |
      ⟨error, rfl, hrows, hjournal, hwhy⟩
  swap
  · rcases hwhy with hfails | hproceed
    · exact hfailed (hrows.trans hledger₁) (hjournal.trans hhistory₁) (by simp [Rpc.statements])
        hfails
    · simp [proceed] at hproceed
  have hledger₂ : s₂.db.rows = ledger.rows := hrows₂.trans hledger₁
  have hhistory₂ : s₂.journal = ledger.journal := hjournal₂.trans hhistory₁
  simp only [proceed, Option.some.injEq, Prod.mk.injEq, Except.ok.injEq] at hexisting
  obtain ⟨rfl, rfl⟩ := hexisting
  have hview : s₁.db.view 0 = ledger.rows := by
    rw [RowStore.view, hlocked.1, AList.empty_union, hledger₁]
  rw [hview] at h₄
  rcases alone_raiseIf h₄ with ⟨hfound, rfl, rfl⟩ | ⟨hfound, h₅⟩
  · rw [Option.isSome_map] at hfound
    obtain ⟨⟨id, r⟩, hr⟩ := Option.isSome_iff_exists.mp hfound
    obtain ⟨hr, hbooking⟩ := findReservation_some hr
    rw [hledger₂, hhistory₂]
    exact .existing hr hbooking
  have habsent : ∀ id (r : Reservation), ledger.rows.lookup (.reservation id) = some r →
      r.bookingID ≠ bookingID := by
    rintro id r hr rfl
    obtain ⟨_, _, hsome⟩ := findReservation_of_lookup hr
    simp [hsome] at hfound
  rcases alone_query_cases hs₁ (by simp) h₅ with
    ⟨_, s₃, hf₃, htake, hs₃, hrows₃, hjournal₃, h₆⟩ | ⟨error, rfl, hrows, hjournal, hwhy⟩
  swap
  · rcases hwhy with hfails | hproceed
    · exact hfailed (hrows.trans hledger₁) (hjournal.trans hhistory₁) (by simp [Rpc.statements])
        hfails
    · rcases proceed_changeSeats hlocked.1 hlocked.2.2 hproceed with
        ⟨_, hchecks⟩ | ⟨hanswer, _⟩
      · refine hrefused (hrows.trans hledger₁) (hjournal.trans hhistory₁) (by simp) (hunfit ?_)
        rintro ⟨_, _, hpassed⟩
        rw [hchecks] at hpassed
        cases hpassed
      · cases hanswer
  have hledger₃ : s₃.db.rows = ledger.rows := hrows₃.trans hledger₁
  have hhistory₃ : s₃.journal = ledger.journal := hjournal₃.trans hhistory₁
  rcases proceed_changeSeats hlocked.1 hlocked.2.2 htake with ⟨hanswer, _⟩ | ⟨_, hwritten⟩
  · cases hanswer
  have htaken : SeatsTaken 0 flightID seatCount row s₃ :=
    ⟨hwritten.pending, hwritten.lock, hwritten.rows ▸ hlocked.2.2⟩
  rcases alone_query_cases hs₃ (by simp) h₆ with
    ⟨reserved, s₄, hf₄, hinsert, hs₄, hrows₄, hjournal₄, h₇⟩ |
      ⟨error, rfl, hrows, hjournal, hwhy⟩
  swap
  · rcases hwhy with hfails | hproceed
    · exact hfailed (hrows.trans hledger₃) (hjournal.trans hhistory₃) (by simp [Rpc.statements])
        hfails
    · rcases proceed_insertReservation hs₃ htaken hpositive hproceed with
        ⟨_, id, r, hr, hbooking⟩ | ⟨hanswer, _⟩
      · exact absurd hbooking (habsent id r (hledger₃ ▸ hr))
      · cases hanswer
  have hledger₄ : s₄.db.rows = ledger.rows := hrows₄.trans hledger₃
  have hhistory₄ : s₄.journal = ledger.journal := hjournal₄.trans hhistory₃
  rcases proceed_insertReservation hs₃ htaken hpositive hinsert with
    ⟨hanswer, _⟩ | ⟨hanswer, hreserved⟩
  · cases hanswer
  obtain rfl := Except.ok.inj hanswer
  rcases alone_commit_cases h₇ with ⟨hf₅, rfl, hrows, hjournal⟩ | ⟨hfails, rfl, rfl⟩
  swap
  · exact hfailed hledger₄ hhistory₄ (by simp [Rpc.statements]) hfails
  obtain ⟨id, hid, hview₄, hchanges⟩ := hreserved.commit
  rw [hrows, hjournal, hview₄, hchanges, hledger₄, hhistory₄]
  refine .granted hrow hscheduled havailable hwritten.checks (hledger₄ ▸ hid) habsent ?_
  simp [Rpc.statements, hf₁, hf₂, hf₃, hf₄, hf₅]

theorem reserveError_code {error : StoreError} (h : error ≠ .alreadyExists) :
    (Server.reserveError error).code ≠ .alreadyExists := by
  cases error with
  | alreadyExists => exact absurd rfl h
  | notFound => decide
  | noSeats => decide
  | db error => exact fun hcode => by cases hcode

/-- Where the accounts hold, the `CHECK` constraints refuse nothing. -/
theorem reserving_of_alone (haccounts : Accounts rows₀ ledger.rows ledger.journal)
    (hpositive : 0 < seatCount) {result : Except StoreError Reservation} {s' : State}
    (h : (Store.reserveSeats flightID bookingID seatCount).alone
      (executeAlone 0 how.generated how.fails) ledger.rest = some (result, s')) :
    Reserving flightID bookingID seatCount how ledger (result.mapError Server.reserveError)
      ⟨s'.db.rows, s'.journal⟩ := by
  have houtcome := reserveOutcome_of_alone haccounts.tables hpositive h
  generalize (⟨s'.db.rows, s'.journal⟩ : Ledger) = ledger' at houtcome
  cases houtcome with
  | granted hrow hscheduled havailable _ hid habsent hcalm =>
      refine .granted hrow hscheduled hpositive havailable hid habsent ?_
      rw [Rpc.effective, accepted_iff.mpr ⟨_, hrow, hpositive, hscheduled, havailable⟩,
        Bool.and_true, List.all_eq_true]
      exact fun statement hmem => by rw [hcalm statement hmem, Bool.not_false]
  | existing hr hbooking => exact .existing hr hbooking rfl
  | failed herror hmem hfails =>
      exact .refused (reserveError_code herror) (effective_of_fails _ hmem hfails)
  | refused herror hrefused =>
      refine .refused (reserveError_code herror) (effective_of_not_accepted ?_)
      rw [← Bool.not_eq_true, accepted_iff]
      rintro ⟨row, hrow, _, hscheduled, havailable⟩
      exact hrefused ⟨row, hrow, hscheduled, havailable,
        haccounts.checks_taken hrow hpositive havailable⟩

theorem alone_getFlight (i : Nat) (generated : Uuid) (fails : Statement → Bool)
    (flightID : Uuid) (s : State) : ∃ outcome, (Store.getFlight flightID).alone
      (executeAlone i generated fails) s = some (outcome, s) := by
  rw [Store.getFlight, alone_query]
  cases hfails : fails (.selectFlight flightID) with
  | true => exact ⟨.error (.db .failure), by simp [executeAlone, hfails, execute]⟩
  | false =>
      simp only [executeAlone, hfails, Bool.false_eq_true, if_false, execute, proceed]
      cases s.db.read i (.flight flightID) with
      | none => exact ⟨_, rfl⟩
      | some row => exact ⟨_, rfl⟩

/-- Refreshing the cache changes nothing in the store. -/
theorem alone_refresh (cached : Bool) (value : Reservation) :
    (Server.refresh cached flightID >>= fun _ => .ret value).alone
      (executeAlone i generated fails) s = some (.ok value, s) := by
  cases cached with
  | false => rfl
  | true =>
      obtain ⟨outcome, hget⟩ := alone_getFlight i generated fails flightID s
      have hrefresh : Server.refresh true flightID =
          (Store.getFlight flightID).attempt >>= fun _ => .ret () := rfl
      rw [Program.alone_bind, hrefresh, Program.alone_bind, Program.alone_attempt, hget]
      rfl

/-- An attempt of `ReserveSeats`. -/
theorem reserving_of_run (haccounts : Accounts rows₀ ledger.rows ledger.journal)
    {result : Except RpcError Reservation} {ledger' : Ledger}
    (h : (Rpc.reserveSeats flightID bookingID seatCount).run how ledger =
      some (result, ledger')) :
    Reserving flightID bookingID seatCount how ledger result ledger' := by
  simp only [Rpc.run, Rpc.program, Option.map_eq_some_iff, Prod.mk.injEq] at h
  obtain ⟨⟨_, s'⟩, halone, rfl, rfl⟩ := h
  by_cases hpositive : 0 < seatCount
  · rw [alone_server_reserveSeats true hpositive] at halone
    cases hstore : (Store.reserveSeats flightID bookingID seatCount).alone
        (executeAlone 0 how.generated how.fails) ledger.rest with
    | none => simp [hstore] at halone
    | some outcome =>
        obtain ⟨stored, s₁⟩ := outcome
        have hreserving := reserving_of_alone haccounts hpositive hstore
        cases stored with
        | error error =>
            simp only [hstore, Option.some.injEq, Prod.mk.injEq] at halone
            obtain ⟨rfl, rfl⟩ := halone
            exact hreserving
        | ok reserved =>
            simp only [hstore, alone_refresh, Option.some.injEq, Prod.mk.injEq] at halone
            obtain ⟨rfl, rfl⟩ := halone
            exact hreserving
  · have hrefused : Server.reserveSeats true ⟨.uuid flightID, .uuid bookingID, seatCount⟩ =
        .fail ⟨.invalidArgument, "seat_count должен быть > 0"⟩ := by
      unfold Server.reserveSeats
      rw [decide_eq_true (Int.not_lt.mp hpositive)]
      rfl
    rw [hrefused] at halone
    obtain ⟨rfl, rfl⟩ := Prod.mk.inj (Option.some.inj halone)
    refine .refused (by simp) (effective_of_not_accepted ?_)
    rw [← Bool.not_eq_true, accepted_iff]
    rintro ⟨_, _, hcount, _⟩
    exact hpositive hcount

end Reserve

/-- What an attempt of `ReleaseReservation` answers and leaves. -/
inductive Releasing (bookingID : Uuid) (how : Execution) (ledger : Ledger) :
    Except RpcError Reservation → Ledger → Prop where
  | released {id : Uuid} {row : Flight} {r : Reservation}
      (hrow : ledger.rows.lookup (.flight r.flightID) = some row)
      (hr : ledger.rows.lookup (.reservation id) = some r) (hbooking : r.bookingID = bookingID)
      (hactive : r.status = .active)
      (heffective : (Rpc.releaseReservation bookingID).effective how ledger) :
      Releasing bookingID how ledger (.ok (markReleased r))
        ⟨(ledger.rows.insert (.flight r.flightID) (changeSeats r.seatCount row)).insert
            (.reservation id) (markReleased r),
          ledger.journal ++ [⟨r.flightID, r.bookingID, r.seatCount⟩]⟩
  | refused {error : RpcError} (hcode : error.code.isTransient = false)
      (hinactive : (Rpc.releaseReservation bookingID).effective how ledger = true →
        ∀ id (r : Reservation), ledger.rows.lookup (.reservation id) = some r →
          r.bookingID = bookingID → r.status ≠ .active) :
      Releasing bookingID how ledger (.error error) ledger

section Release

variable {ledger : Ledger} {how : Execution} {bookingID : Uuid}

theorem releaseError_code (error : StoreError) :
    (Server.releaseError error).code.isTransient = false := by
  cases error with
  | notFound => rfl
  | noSeats => rfl
  | alreadyExists => rfl
  | db error => rfl

/-- How the transaction of `ReleaseReservation` ends on rows that nobody else
    uses. -/
inductive ReleaseOutcome (bookingID : Uuid) (how : Execution) (ledger : Ledger) :
    Except StoreError Reservation → Ledger → Prop where
  | released {id : Uuid} {row : Flight} {r : Reservation}
      (hrow : ledger.rows.lookup (.flight r.flightID) = some row)
      (hfound : findReservation ledger.rows bookingID = some (id, r))
      (hactive : r.status = .active) (hchecks : (changeSeats r.seatCount row).checks = true)
      (hcalm : ∀ statement ∈ (Rpc.releaseReservation bookingID).statements ledger.rows,
        how.fails statement = false) :
      ReleaseOutcome bookingID how ledger (.ok (markReleased r))
        ⟨(ledger.rows.insert (.flight r.flightID) (changeSeats r.seatCount row)).insert
            (.reservation id) (markReleased r),
          ledger.journal ++ [⟨r.flightID, r.bookingID, r.seatCount⟩]⟩
  | failed {statement : Statement} {error : StoreError}
      (hmem : statement ∈ (Rpc.releaseReservation bookingID).statements ledger.rows)
      (hfails : how.fails statement = true) :
      ReleaseOutcome bookingID how ledger (.error error) ledger
  | refused {error : StoreError}
      (hrefused : ∀ id r row, findReservation ledger.rows bookingID = some (id, r) →
        ledger.rows.lookup (.flight r.flightID) = some row → r.status = .active →
        (changeSeats r.seatCount row).checks = false) :
      ReleaseOutcome bookingID how ledger (.error error) ledger

/-- The transaction of `ReleaseReservation`, executed on rows that nobody else
    uses. -/
theorem releaseOutcome_of_alone (htables : Tables ledger.rows)
    {result : Except StoreError Reservation} {s' : State}
    (h : (Store.releaseReservation bookingID).alone
      (executeAlone 0 how.generated how.fails) ledger.rest = some (result, s')) :
    ReleaseOutcome bookingID how ledger result ⟨s'.db.rows, s'.journal⟩ := by
  have hfailed : ∀ {statement error} {s' : State}, s'.db.rows = ledger.rows →
      s'.journal = ledger.journal →
      statement ∈ (Rpc.releaseReservation bookingID).statements ledger.rows →
      how.fails statement = true → ReleaseOutcome bookingID how ledger
        (.error (.db error)) ⟨s'.db.rows, s'.journal⟩ := by
    intro statement error s' hrows hjournal hmem hfails
    rw [hrows, hjournal]
    exact .failed hmem hfails
  rw [Store.releaseReservation] at h
  rcases alone_query_cases htables.consistent (by simp) h with
    ⟨value, s₁, hf₁, hselect, hs₁, hrows₁, hjournal₁, h₁⟩ | ⟨error, rfl, hrows, hjournal, hwhy⟩
  swap
  · rcases hwhy with hfails | hselect
    · exact hfailed hrows hjournal (by simp [Rpc.statements]) hfails
    · rcases proceed_selectReservationForUpdate (RowStore.idle_ofRows _ _) hselect with
        ⟨hanswer, _⟩ | ⟨_, _, hanswer, _⟩
      · cases hanswer
      · cases hanswer
  have hledger₁ : s₁.db.rows = ledger.rows := hrows₁
  have hhistory₁ : s₁.journal = ledger.journal := hjournal₁
  rcases proceed_selectReservationForUpdate (RowStore.idle_ofRows _ _) hselect with
    ⟨hvalue, hnone⟩ | ⟨id, r, hvalue, hfound, hlocked⟩
  · obtain rfl := Except.ok.inj hvalue
    obtain ⟨rfl, rfl⟩ := Prod.mk.inj (Option.some.inj h₁)
    rw [hledger₁, hhistory₁]
    refine .refused fun id r row hfound => ?_
    cases hnone.symm.trans hfound
  obtain rfl := Except.ok.inj hvalue
  have hfound' : findReservation ledger.rows bookingID = some (id, r) := hfound
  obtain ⟨hr, hbooking⟩ := findReservation_some hfound'
  obtain ⟨row, hrow⟩ := Option.isSome_iff_exists.mp (htables.parent id r hr)
  have hstatements : (Rpc.releaseReservation bookingID).statements ledger.rows =
      [.selectReservationForUpdate bookingID, .changeSeats r.seatCount r.flightID,
        .markReleased id, .commit] := by
    simp [Rpc.statements, hfound']
  have hrefused : ∀ {error} {s' : State}, s'.db.rows = ledger.rows →
      s'.journal = ledger.journal →
      (r.status = .active → (changeSeats r.seatCount row).checks = false) →
      ReleaseOutcome bookingID how ledger (.error error) ⟨s'.db.rows, s'.journal⟩ := by
    intro error s' hrows hjournal hnot
    rw [hrows, hjournal]
    refine .refused fun id' r' row' hfound' hrow' hactive => ?_
    cases Option.some.inj (hfound.symm.trans hfound')
    obtain rfl := Option.some.inj (hrow.symm.trans hrow')
    exact hnot hactive
  rcases alone_raiseIf h₁ with ⟨hstatus, rfl, rfl⟩ | ⟨hstatus, h₂⟩
  · refine hrefused hledger₁ hhistory₁ fun hactive => ?_
    simp [hactive] at hstatus
  have hactive : r.status = .active := by simpa using hstatus
  have hrow₁ : s₁.db.rows.lookup (.flight r.flightID) = some row := hledger₁ ▸ hrow
  rcases alone_query_cases hs₁ (by simp) h₂ with
    ⟨_, s₂, hf₂, hreturn, hs₂, hrows₂, hjournal₂, h₃⟩ | ⟨error, rfl, hrows, hjournal, hwhy⟩
  swap
  · rcases hwhy with hfails | hproceed
    · exact hfailed (hrows.trans hledger₁) (hjournal.trans hhistory₁) (by simp [hstatements])
        hfails
    · rcases proceed_changeSeats hlocked.1 hrow₁ hproceed with ⟨_, hchecks⟩ | ⟨hanswer, _⟩
      · exact hrefused (hrows.trans hledger₁) (hjournal.trans hhistory₁) fun _ => hchecks
      · cases hanswer
  have hledger₂ : s₂.db.rows = ledger.rows := hrows₂.trans hledger₁
  have hhistory₂ : s₂.journal = ledger.journal := hjournal₂.trans hhistory₁
  rcases proceed_changeSeats hlocked.1 hrow₁ hreturn with ⟨hanswer, _⟩ | ⟨_, hwritten⟩
  · cases hanswer
  have hreturned : SeatsReturned 0 id r row s₂ :=
    ⟨hwritten.pending, hwritten.held _ hlocked.2.1, hwritten.lock,
      hwritten.rows ▸ hlocked.2.2, hwritten.rows ▸ hrow₁⟩
  have hpositive := htables.positive id r hr
  rcases alone_query_cases hs₂ (by simp) h₃ with
    ⟨marked, s₃, hf₃, hmark, hs₃, hrows₃, hjournal₃, h₄⟩ | ⟨error, rfl, hrows, hjournal, hwhy⟩
  swap
  · rcases hwhy with hfails | hproceed
    · exact hfailed (hrows.trans hledger₂) (hjournal.trans hhistory₂) (by simp [hstatements])
        hfails
    · obtain ⟨hanswer, _⟩ := proceed_markReleased hpositive hreturned hproceed
      cases hanswer
  have hledger₃ : s₃.db.rows = ledger.rows := hrows₃.trans hledger₂
  have hhistory₃ : s₃.journal = ledger.journal := hjournal₃.trans hhistory₂
  obtain ⟨hanswer, hreleased⟩ := proceed_markReleased hpositive hreturned hmark
  obtain rfl := Except.ok.inj hanswer
  rcases alone_commit_cases h₄ with ⟨hf₄, rfl, hrows, hjournal⟩ | ⟨hfails, rfl, rfl⟩
  swap
  · exact hfailed hledger₃ hhistory₃ (by simp [hstatements]) hfails
  obtain ⟨hview, hchanges⟩ := hreleased.commit
  rw [hrows, hjournal, hview, hchanges, hledger₃, hhistory₃]
  refine .released hrow hfound hactive hwritten.checks ?_
  simp [hstatements, hf₁, hf₂, hf₃, hf₄]

/-- Where the accounts hold, the `CHECK` constraints refuse nothing. -/
theorem releasing_of_alone (haccounts : Accounts rows₀ ledger.rows ledger.journal)
    {result : Except StoreError Reservation} {s' : State}
    (h : (Store.releaseReservation bookingID).alone
      (executeAlone 0 how.generated how.fails) ledger.rest = some (result, s')) :
    Releasing bookingID how ledger (result.mapError Server.releaseError)
      ⟨s'.db.rows, s'.journal⟩ := by
  have houtcome := releaseOutcome_of_alone haccounts.tables h
  generalize (⟨s'.db.rows, s'.journal⟩ : Ledger) = ledger' at houtcome
  cases houtcome with
  | released hrow hfound hactive _ hcalm =>
      obtain ⟨hr, hbooking⟩ := findReservation_some hfound
      refine .released hrow hr hbooking hactive ?_
      have haccepted : (Rpc.releaseReservation bookingID).accepted ledger.rows = true := rfl
      rw [Rpc.effective, haccepted, Bool.and_true, List.all_eq_true]
      exact fun statement hmem => by rw [hcalm statement hmem, Bool.not_false]
  | failed hmem hfails =>
      refine .refused (releaseError_code _) fun heffective => ?_
      rw [effective_of_fails _ hmem hfails] at heffective
      cases heffective
  | refused hrefused =>
      refine .refused (releaseError_code _) fun _ id r hr hbooking hactive => ?_
      obtain ⟨id', r', hfound⟩ := findReservation_of_lookup hr
      rw [hbooking] at hfound
      obtain ⟨hr', hbooking'⟩ := findReservation_some hfound
      obtain rfl := haccounts.unique id id' r r' hr hr' (hbooking.trans hbooking'.symm)
      obtain rfl := Option.some.inj (hr.symm.trans hr')
      obtain ⟨row, hrow⟩ := Option.isSome_iff_exists.mp (haccounts.parent id r hr)
      have hchecks := hrefused id r row hfound hrow hactive
      rw [haccounts.checks_returned hrow hr hactive] at hchecks
      cases hchecks

theorem server_releaseReservation (cached : Bool) (bookingID : Uuid) :
    Server.releaseReservation cached ⟨.uuid bookingID⟩ =
      (Store.releaseReservation bookingID).attempt >>= fun outcome =>
        match outcome with
        | .error error => .fail (Server.releaseError error)
        | .ok r => Server.refresh cached r.flightID >>= fun _ => .ret r := rfl

/-- An attempt of `ReleaseReservation`. -/
theorem releasing_of_run (haccounts : Accounts rows₀ ledger.rows ledger.journal)
    {result : Except RpcError Reservation} {ledger' : Ledger}
    (h : (Rpc.releaseReservation bookingID).run how ledger = some (result, ledger')) :
    Releasing bookingID how ledger result ledger' := by
  simp only [Rpc.run, Rpc.program, Option.map_eq_some_iff, Prod.mk.injEq] at h
  obtain ⟨⟨_, s'⟩, halone, rfl, rfl⟩ := h
  rw [server_releaseReservation, Program.alone_bind, Program.alone_attempt] at halone
  cases hstore : (Store.releaseReservation bookingID).alone
      (executeAlone 0 how.generated how.fails) ledger.rest with
  | none => simp [hstore] at halone
  | some outcome =>
      obtain ⟨stored, s₁⟩ := outcome
      have hreleasing := releasing_of_alone haccounts hstore
      cases stored with
      | error error =>
          simp only [hstore, Option.map_some, Program.alone_fail, Option.some.injEq,
            Prod.mk.injEq] at halone
          obtain ⟨rfl, rfl⟩ := halone
          exact hreleasing
      | ok r =>
          simp only [hstore, Option.map_some, alone_refresh, Option.some.injEq,
            Prod.mk.injEq] at halone
          obtain ⟨rfl, rfl⟩ := halone
          exact hreleasing

end Release

theorem ledger_of_getFlight {ledger ledger' : Ledger} {how : Execution} {flightID : Uuid}
    {result : Except RpcError Flight}
    (h : (Rpc.getFlight flightID).run how ledger = some (result, ledger')) :
    ledger' = ledger := by
  simp only [Rpc.run, Rpc.program, Option.map_eq_some_iff, Prod.mk.injEq] at h
  obtain ⟨⟨_, s'⟩, halone, _, rfl⟩ := h
  have hs' : s' = ledger.rest := by
    cases hhit : how.hit with
    | some f =>
        rw [hhit] at halone
        exact (Prod.mk.inj (Option.some.inj halone)).2.symm
    | none =>
        obtain ⟨outcome, hget⟩ := alone_getFlight 0 how.generated how.fails flightID ledger.rest
        have hgiven : (IdText.uuid flightID == IdText.empty) = false := rfl
        simp only [hhit, Server.getFlight, hgiven, Program.raiseIf, Bool.false_eq_true,
          if_false, Server.parse, Program.ret_bind] at halone
        rw [Program.alone_bind, Program.alone_attempt, hget] at halone
        cases outcome with
        | error error => exact (Prod.mk.inj (Option.some.inj halone)).2.symm
        | ok f => exact (Prod.mk.inj (Option.some.inj halone)).2.symm
  rw [hs']
  rfl

/-- An attempt is a step of the ledger. -/
theorem seatStep_of_run {ledger ledger' : Ledger} {how : Execution} {rpc : Rpc}
    {result : Except RpcError rpc.Reply} (haccounts : Accounts rows₀ ledger.rows ledger.journal)
    (h : rpc.run how ledger = some (result, ledger')) :
    SeatStep ledger.rows ledger.journal ledger'.rows ledger'.journal := by
  cases rpc with
  | getFlight flightID =>
      rw [ledger_of_getFlight h]
      exact .unchanged
  | reserveSeats flightID bookingID seatCount =>
      cases reserving_of_run haccounts h with
      | granted hrow hscheduled hpositive havailable hid habsent =>
          exact .reserve hrow hscheduled hpositive havailable hid habsent
      | existing => exact .unchanged
      | refused => exact .unchanged
  | releaseReservation bookingID =>
      cases releasing_of_run haccounts h with
      | released hrow hr _ hactive => exact .release hrow hr hactive
      | refused => exact .unchanged

/-- What an attempt does to the reservations, and what it says about them when it
    takes effect. -/
structure Effect (rpc : Rpc) (how : Execution) (ledger ledger' : Ledger) : Prop where
  origin : ∀ id (r' : Reservation), ledger'.rows.lookup (.reservation id) = some r' →
    (∃ r : Reservation, ledger.rows.lookup (.reservation id) = some r ∧
      r'.bookingID = r.bookingID ∧ r'.flightID = r.flightID ∧ r'.seatCount = r.seatCount) ∨
    (r'.status = .active ∧ rpc = .reserveSeats r'.flightID r'.bookingID r'.seatCount ∧
      rpc.effective how ledger = true ∧
      ∀ id (r : Reservation), ledger.rows.lookup (.reservation id) = some r →
        r.bookingID ≠ r'.bookingID)
  reserved : ∀ f b n, rpc = .reserveSeats f b n → rpc.effective how ledger = true →
    ∃ id, ∃ r : Reservation, ledger'.rows.lookup (.reservation id) = some r ∧ r.bookingID = b
  settled : ∀ b, rpc = .releaseReservation b → rpc.effective how ledger = true →
    ∀ id (r : Reservation), ledger'.rows.lookup (.reservation id) = some r →
      r.bookingID = b → r.status ≠ .active
  released : ∀ id (r' : Reservation), ledger'.rows.lookup (.reservation id) = some r' →
    r'.status ≠ .active →
    (∃ r : Reservation, ledger.rows.lookup (.reservation id) = some r ∧
      r'.bookingID = r.bookingID ∧ r.status ≠ .active) ∨
    (rpc = .releaseReservation r'.bookingID ∧ rpc.effective how ledger = true)

/-- The effect of an attempt that leaves the ledger as it is. -/
theorem effect_unchanged {ledger : Ledger} {how : Execution} {rpc : Rpc}
    (hreserved : ∀ f b n, rpc = .reserveSeats f b n → rpc.effective how ledger = true →
      ∃ id, ∃ r : Reservation, ledger.rows.lookup (.reservation id) = some r ∧
        r.bookingID = b)
    (hsettled : ∀ b, rpc = .releaseReservation b → rpc.effective how ledger = true →
      ∀ id (r : Reservation), ledger.rows.lookup (.reservation id) = some r →
        r.bookingID = b → r.status ≠ .active) :
    Effect rpc how ledger ledger :=
  ⟨fun _ r' hr' => Or.inl ⟨r', hr', rfl, rfl, rfl⟩, hreserved, hsettled,
    fun _ r' hr' hinactive => Or.inl ⟨r', hr', rfl, hinactive⟩⟩

theorem effect_of_reserving {ledger ledger' : Ledger} {how : Execution}
    {flightID bookingID : Uuid} {seatCount : Int} {result : Except RpcError Reservation}
    (h : Reserving flightID bookingID seatCount how ledger result ledger') :
    Effect (.reserveSeats flightID bookingID seatCount) how ledger ledger' := by
  cases h with
  | @granted id row _ _ _ _ hid habsent heffective =>
      refine ⟨fun id' r' hr' => ?_, fun f b n heq _ => ?_, fun b heq => (by cases heq),
        fun id' r' hr' hinactive => ?_⟩
      · rw [lookup_reservation_commit] at hr'
        split at hr'
        · obtain rfl := Option.some.inj hr'
          exact Or.inr ⟨rfl, rfl, heffective, habsent⟩
        · exact Or.inl ⟨r', hr', rfl, rfl, rfl⟩
      · cases heq
        exact ⟨id, _, by rw [lookup_reservation_commit, if_pos rfl], rfl⟩
      · rw [lookup_reservation_commit] at hr'
        split at hr'
        · obtain rfl := Option.some.inj hr'
          exact absurd rfl hinactive
        · exact Or.inl ⟨r', hr', rfl, hinactive⟩
  | existing hr hbooking =>
      refine effect_unchanged (fun f b n heq _ => ?_) fun b heq => by cases heq
      cases heq
      exact ⟨_, _, hr, hbooking⟩
  | refused _ hineffective =>
      refine effect_unchanged (fun f b n heq heffective => ?_) fun b heq => by cases heq
      rw [hineffective] at heffective
      cases heffective

theorem effect_of_releasing {ledger ledger' : Ledger} {how : Execution} {bookingID : Uuid}
    {result : Except RpcError Reservation} (haccounts : Accounts rows₀ ledger.rows ledger.journal)
    (h : Releasing bookingID how ledger result ledger') :
    Effect (.releaseReservation bookingID) how ledger ledger' := by
  cases h with
  | @released id row r _ hr hbooking _ heffective =>
      refine ⟨fun id' r' hr' => ?_, fun f b n heq => (by cases heq),
        fun b heq _ id' r' hr' hb => ?_, fun id' r' hr' hinactive => ?_⟩
      · rw [lookup_reservation_commit] at hr'
        split at hr'
        · rename_i hid
          obtain rfl := Option.some.inj hr'
          subst hid
          exact Or.inl ⟨r, hr, rfl, rfl, rfl⟩
        · exact Or.inl ⟨r', hr', rfl, rfl, rfl⟩
      · cases heq
        rw [lookup_reservation_commit] at hr'
        split at hr'
        · obtain rfl := Option.some.inj hr'
          exact fun hactive => by cases hactive
        · rename_i hid
          exact absurd (haccounts.unique id' id r' r hr' hr (hb.trans hbooking.symm)) hid
      · rw [lookup_reservation_commit] at hr'
        split at hr'
        · obtain rfl := Option.some.inj hr'
          refine Or.inr ⟨?_, heffective⟩
          rw [← hbooking]
          rfl
        · exact Or.inl ⟨r', hr', rfl, hinactive⟩
  | refused _ hinactive =>
      refine effect_unchanged (fun f b n heq => by cases heq) fun b heq heffective => ?_
      cases heq
      exact hinactive heffective

theorem effect_of_run {ledger ledger' : Ledger} {how : Execution} {rpc : Rpc}
    {result : Except RpcError rpc.Reply} (haccounts : Accounts rows₀ ledger.rows ledger.journal)
    (h : rpc.run how ledger = some (result, ledger')) : Effect rpc how ledger ledger' := by
  cases rpc with
  | getFlight flightID =>
      rw [ledger_of_getFlight h]
      exact effect_unchanged (fun _ _ _ heq => by cases heq) fun _ heq => by cases heq
  | reserveSeats flightID bookingID seatCount =>
      exact effect_of_reserving (reserving_of_run haccounts h)
  | releaseReservation bookingID =>
      exact effect_of_releasing haccounts (releasing_of_run haccounts h)

theorem seatStep_of_changeStatus {ledger ledger' : Ledger} {change : StatusChange}
    (haccounts : Accounts rows₀ ledger.rows ledger.journal)
    (h : ledger.changeStatus change = some ledger') :
    SeatStep ledger.rows ledger.journal ledger'.rows ledger'.journal := by
  simp only [Ledger.changeStatus, Option.map_eq_some_iff] at h
  obtain ⟨s', hchange, rfl⟩ := h
  exact (changeStatus_frame hchange haccounts.tables.consistent).2.2

theorem changeStatus_reservation {ledger ledger' : Ledger} {change : StatusChange}
    (h : ledger.changeStatus change = some ledger') (id : Uuid) :
    ledger'.rows.lookup (.reservation id) = ledger.rows.lookup (.reservation id) := by
  simp only [Ledger.changeStatus, changeStatus, Option.map_eq_some_iff] at h
  obtain ⟨_, ⟨db, hwrite, rfl⟩, rfl⟩ := h
  obtain ⟨row, _, _, rfl⟩ := RowStore.overwrite_cases hwrite
  exact AList.lookup_insert_ne (by simp)

/-! ## A release never waits -/

/-- Run by a transaction that is alone, the program comes to its end. -/
def Completes {ε α : Type} (i : Nat) (generated : Uuid) (fails : Statement → Bool)
    (p : Program Statement Answer ε α) : Prop :=
  ∀ s, s.db.Solitary i → ∃ result s',
    p.alone (executeAlone i generated fails) s = some (result, s') ∧ s'.db.Solitary i

theorem execute_completes (generated : Uuid) (fails : Statement → Bool)
    {statement : Statement} (hs : s.db.Solitary i)
    (hinsert : ∀ flightID bookingID seatCount,
      statement ≠ .insertReservation flightID bookingID seatCount) :
    ∃ answer s', executeAlone i generated fails statement s = some (answer, s') ∧
      s'.db.Solitary i := by
  cases hfails : fails statement with
  | true => exact ⟨.error .failure, s, by simp only [executeAlone, hfails, if_true, execute], hs⟩
  | false =>
      simp only [executeAlone, hfails, Bool.false_eq_true, if_false, execute]
      cases statement with
      | selectFlightForUpdate flightID =>
          obtain ⟨row, db, hselect, hdb⟩ := hs.selectForUpdate (.flight flightID)
          exact ⟨_, _, by rw [proceed, hselect]; rfl, hdb⟩
      | selectReservation bookingID => exact ⟨_, s, rfl, hs⟩
      | changeSeats change flightID =>
          obtain ⟨written, db, hupdate, hdb⟩ := hs.update (.flight flightID)
            (changeSeats change) Flight.checks
          exact ⟨_, _, by rw [proceed, hupdate]; rfl, hdb⟩
      | insertReservation flightID bookingID seatCount =>
          exact absurd rfl (hinsert flightID bookingID seatCount)
      | selectReservationForUpdate bookingID =>
          simp only [proceed]
          split
          · exact ⟨_, s, rfl, hs⟩
          · rename_i id r _
            obtain ⟨row, db, hselect, hdb⟩ := hs.selectForUpdate (.reservation id)
            exact ⟨_, _, by rw [hselect]; rfl, hdb⟩
      | markReleased id =>
          obtain ⟨written, db, hupdate, hdb⟩ := hs.update (.reservation id) markReleased
            Reservation.checks
          exact ⟨_, _, by rw [proceed, hupdate]; rfl, hdb⟩
      | commit => exact ⟨_, _, rfl, hs.finish _⟩
      | selectFlight flightID => exact ⟨_, s, rfl, hs⟩

theorem completes_query {β : Type} {statement : Statement}
    {next : Result statement → Program Statement Answer StoreError β}
    (hinsert : ∀ flightID bookingID seatCount,
      statement ≠ .insertReservation flightID bookingID seatCount)
    (hnext : ∀ value, Completes i generated fails (next value)) :
    Completes i generated fails (query statement >>= next) := by
  intro s hs
  obtain ⟨answer, s₁, hexec, hs₁⟩ := execute_completes generated fails hs hinsert
  rw [alone_query, hexec]
  cases answer with
  | ok value => exact hnext value s₁ hs₁
  | error error => exact ⟨_, s₁, rfl, hs₁⟩

theorem completes_raiseIf {β : Type} {failed : Bool} {error : StoreError}
    {next : Unit → Program Statement Answer StoreError β}
    (hnext : Completes i generated fails (next ())) :
    Completes i generated fails (Program.raiseIf failed error >>= next) := by
  cases failed with
  | true => exact fun s hs => ⟨_, s, rfl, hs⟩
  | false => exact hnext

theorem completes_releaseReservation (i : Nat) (generated : Uuid) (fails : Statement → Bool)
    (bookingID : Uuid) :
    Completes i generated fails (Store.releaseReservation bookingID) := by
  refine completes_query (fun _ _ _ => by simp) fun found => ?_
  cases found with
  | none => exact fun s hs => ⟨_, s, rfl, hs⟩
  | some found =>
      refine completes_raiseIf ?_
      refine completes_query (fun _ _ _ => by simp) fun _ => ?_
      refine completes_query (fun _ _ _ => by simp) fun r => ?_
      refine completes_query (fun _ _ _ => by simp) fun _ => ?_
      exact fun s hs => ⟨_, s, rfl, hs⟩

theorem run_releaseReservation (bookingID : Uuid) (how : Execution) (ledger : Ledger) :
    ∃ result ledger', (Rpc.releaseReservation bookingID).run how ledger =
      some (result, ledger') := by
  obtain ⟨stored, s₁, hstore, _⟩ := completes_releaseReservation 0 how.generated how.fails
    bookingID ledger.rest (RowStore.solitary_ofRows ledger.rows 0)
  simp only [Rpc.run, Rpc.program, server_releaseReservation, Program.alone_bind,
    Program.alone_attempt, hstore, Option.map_some]
  cases stored with
  | error error => exact ⟨_, _, rfl⟩
  | ok released =>
      simp only [alone_refresh, Option.map_some]
      exact ⟨_, _, rfl⟩

theorem effective_release {how : Execution} (hcalm : ∀ statement, how.fails statement = false)
    (bookingID : Uuid) (ledger : Ledger) :
    (Rpc.releaseReservation bookingID).effective how ledger = true := by
  simp [Rpc.effective, Rpc.accepted, hcalm]

end SoaHomework.FlightService
