import Mathlib.Algebra.Order.Group.Int
import SoaHomework.FlightStore

/-!
# Seat accounts

What the committed rows of the flight database and its history say together:
for each flight the available seats and the seats of its `ACTIVE` reservations
have a constant sum, and the history accounts for every change of
`available_seats`, of `version` and of a reservation. The accounts are kept by
the two write sets that the store's transactions commit.
-/

namespace SoaHomework.FlightService

/-- The seats a row holds of flight `f`. -/
def activeWeight (f : Uuid) : (k : Key) → Row k → Int
  | .flight _, _ => 0
  | .reservation _, r => if r.flightID = f ∧ r.status = .active then r.seatCount else 0

/-- The sum of `seat_count` over the `ACTIVE` reservations of flight `f`. -/
def activeSeats (f : Uuid) (rows : Rows) : Int := rows.total (activeWeight f)

/-- The committed changes of the seats of flight `f`, in order. -/
def changesOf (f : Uuid) (journal : List SeatChange) : List Int :=
  (journal.filter fun entry => entry.flightID = f).map SeatChange.change

/-- The committed changes that took seats for booking `b`. -/
def deductionsOf (b : Uuid) (journal : List SeatChange) : List SeatChange :=
  journal.filter fun entry => entry.bookingID = b ∧ entry.change < 0

/-- The committed changes that returned seats of booking `b`. -/
def returnsOf (b : Uuid) (journal : List SeatChange) : List SeatChange :=
  journal.filter fun entry => entry.bookingID = b ∧ 0 < entry.change

/-- What the migration demands of the rows. -/
structure Tables (rows : Rows) : Prop where
  unique : ∀ id id' (r r' : Reservation), rows.lookup (.reservation id) = some r →
    rows.lookup (.reservation id') = some r' → r.bookingID = r'.bookingID → id = id'
  parent : ∀ id (r : Reservation), rows.lookup (.reservation id) = some r →
    (rows.lookup (.flight r.flightID)).isSome
  positive : ∀ id (r : Reservation), rows.lookup (.reservation id) = some r →
    0 < r.seatCount
  checks : ∀ f (row : Flight), rows.lookup (.flight f) = some row → row.checks = true

/-- What the migration demands of the rows, with the condition that the active
    seats of a flight fit on it. -/
structure Schema (rows : Rows) : Prop extends Tables rows where
  capacity : ∀ f (row : Flight), rows.lookup (.flight f) = some row →
    row.availableSeats + activeSeats f rows ≤ row.totalSeats

/-- The account of flight `f`, which started as `row₀` and is now `row`. -/
structure FlightAccount (f : Uuid) (rows₀ rows : Rows) (journal : List SeatChange)
    (row₀ row : Flight) : Prop where
  seats : row.availableSeats + activeSeats f rows = row₀.availableSeats + activeSeats f rows₀
  available : row.availableSeats = row₀.availableSeats + (changesOf f journal).sum
  version : row.version = row₀.version + (changesOf f journal).length
  nonneg : 0 ≤ row.availableSeats
  total : row.totalSeats = row₀.totalSeats
  price : row.priceCents = row₀.priceCents

/-- The accounts of all flights and bookings. -/
structure Accounts (rows₀ rows : Rows) (journal : List SeatChange) : Prop where
  initial : Schema rows₀
  unique : ∀ id id' (r r' : Reservation), rows.lookup (.reservation id) = some r →
    rows.lookup (.reservation id') = some r' → r.bookingID = r'.bookingID → id = id'
  parent : ∀ id (r : Reservation), rows.lookup (.reservation id) = some r →
    (rows.lookup (.flight r.flightID)).isSome
  positive : ∀ id (r : Reservation), rows.lookup (.reservation id) = some r →
    0 < r.seatCount
  kept : ∀ f, (rows.lookup (.flight f)).isSome ↔ (rows₀.lookup (.flight f)).isSome
  flight : ∀ f row₀ row, rows₀.lookup (.flight f) = some row₀ →
    rows.lookup (.flight f) = some row → FlightAccount f rows₀ rows journal row₀ row
  entry : ∀ entry ∈ journal, entry.change ≠ 0 ∧ ∃ id, ∃ r : Reservation,
    rows.lookup (.reservation id) = some r ∧ r.bookingID = entry.bookingID ∧
      r.flightID = entry.flightID
  returned : ∀ b, (returnsOf b journal).length ≤ 1
  unreturned : ∀ id (r : Reservation), rows.lookup (.reservation id) = some r →
    r.status = .active → returnsOf r.bookingID journal = []
  deducted : ∀ id (r : Reservation), rows.lookup (.reservation id) = some r →
    rows₀.lookup (.reservation id) = none →
      deductionsOf r.bookingID journal = [⟨r.flightID, r.bookingID, -r.seatCount⟩]
  settled : ∀ id (r : Reservation), rows.lookup (.reservation id) = some r →
    rows₀.lookup (.reservation id) = none → r.status ≠ .active →
      returnsOf r.bookingID journal = [⟨r.flightID, r.bookingID, r.seatCount⟩]

theorem changesOf_append (f : Uuid) (journal journal' : List SeatChange) :
    changesOf f (journal ++ journal') = changesOf f journal ++ changesOf f journal' := by
  simp [changesOf]

theorem returnsOf_append (b : Uuid) (journal journal' : List SeatChange) :
    returnsOf b (journal ++ journal') = returnsOf b journal ++ returnsOf b journal' := by
  simp [returnsOf]

theorem deductionsOf_append (b : Uuid) (journal journal' : List SeatChange) :
    deductionsOf b (journal ++ journal') =
      deductionsOf b journal ++ deductionsOf b journal' := by
  simp [deductionsOf]

theorem accounts_initial {rows : Rows} (h : Schema rows) : Accounts rows rows [] where
  initial := h
  unique := h.unique
  parent := h.parent
  positive := h.positive
  kept _ := Iff.rfl
  flight f row₀ row h₀ hrow := by
    rw [h₀, Option.some.injEq] at hrow
    subst hrow
    obtain ⟨_, hnonneg, _, _⟩ := row₀.checks_iff.mp (h.checks f row₀ h₀)
    exact ⟨rfl, by simp [changesOf], by simp [changesOf], hnonneg, rfl, rfl⟩
  entry _ he := by cases he
  returned _ := by simp [returnsOf]
  unreturned _ _ _ _ := rfl
  deducted id r hr hnew := by
    rw [hr] at hnew
    cases hnew
  settled id r hr hnew := by
    rw [hr] at hnew
    cases hnew

variable {rows₀ rows : Rows} {journal : List SeatChange}

theorem activeWeight_nonneg
    (hpositive : ∀ id (r : Reservation), rows.lookup (.reservation id) = some r →
      0 < r.seatCount) (f : Uuid) :
    ∀ k row, rows.lookup k = some row → 0 ≤ activeWeight f k row := by
  intro k row hrow
  cases k with
  | flight id => exact Int.le_refl 0
  | reservation id =>
      simp only [activeWeight]
      split
      · exact Int.le_of_lt (hpositive id row hrow)
      · exact Int.le_refl 0

/-- An active reservation holds its seats of the flight it is for. -/
theorem seatCount_le_activeSeats (h : Accounts rows₀ rows journal) {id : Uuid}
    {r : Reservation} (hr : rows.lookup (.reservation id) = some r)
    (hactive : r.status = .active) : r.seatCount ≤ activeSeats r.flightID rows := by
  have hle := AList.weight_le_total (activeWeight_nonneg h.positive r.flightID) hr
  have hweight : activeWeight r.flightID (.reservation id) r = r.seatCount := by
    simp [activeWeight, hactive]
  rw [hweight] at hle
  exact hle

theorem activeSeats_nonneg (h : Accounts rows₀ rows journal) (f : Uuid) :
    0 ≤ activeSeats f rows :=
  AList.total_nonneg (activeWeight_nonneg h.positive f)

theorem Accounts.flight_of_lookup (h : Accounts rows₀ rows journal) {f : Uuid} {row : Flight}
    (hrow : rows.lookup (.flight f) = some row) :
    ∃ row₀ : Flight, rows₀.lookup (.flight f) = some row₀ ∧
      FlightAccount f rows₀ rows journal row₀ row := by
  obtain ⟨row₀, h₀⟩ := Option.isSome_iff_exists.mp
    ((h.kept f).mp (by rw [hrow]; rfl))
  exact ⟨row₀, h₀, h.flight f row₀ row h₀ hrow⟩

/-- The seats of a flight fit on it in every state with accounts. -/
theorem Accounts.capacity (h : Accounts rows₀ rows journal) {f : Uuid} {row : Flight}
    (hrow : rows.lookup (.flight f) = some row) :
    row.availableSeats + activeSeats f rows ≤ row.totalSeats := by
  obtain ⟨row₀, h₀, haccount⟩ := h.flight_of_lookup hrow
  have hcapacity := h.initial.capacity f row₀ h₀
  rw [haccount.seats, haccount.total]
  exact hcapacity

theorem Accounts.checks (h : Accounts rows₀ rows journal) {f : Uuid} {row : Flight}
    (hrow : rows.lookup (.flight f) = some row) : row.checks = true := by
  obtain ⟨row₀, h₀, haccount⟩ := h.flight_of_lookup hrow
  obtain ⟨htotal, _, hprice, _⟩ := row₀.checks_iff.mp (h.initial.checks f row₀ h₀)
  have hcapacity := h.capacity hrow
  have hactive := activeSeats_nonneg h f
  refine row.checks_iff.mpr ⟨?_, haccount.nonneg, ?_, by omega⟩
  · rw [haccount.total]
    exact htotal
  · rw [haccount.price]
    exact hprice

theorem Accounts.tables (h : Accounts rows₀ rows journal) : Tables rows where
  unique := h.unique
  parent := h.parent
  positive := h.positive
  checks _ _ hrow := h.checks hrow

/-- Taking the seats of a flight that has them passes the `CHECK` constraints. -/
theorem Accounts.checks_taken (h : Accounts rows₀ rows journal) {f : Uuid} {row : Flight}
    {n : Int} (hrow : rows.lookup (.flight f) = some row) (hn : 0 < n)
    (havailable : n ≤ row.availableSeats) : (changeSeats (-n) row).checks = true := by
  obtain ⟨htotal, _, hprice, hle⟩ := row.checks_iff.mp (h.checks hrow)
  refine Flight.checks_iff _ |>.mpr ⟨htotal, ?_, hprice, ?_⟩
  · simp only [changeSeats]
    omega
  · simp only [changeSeats]
    omega

/-- Returning the seats of an `ACTIVE` reservation passes the `CHECK`
    constraints, because they still fit on the flight. -/
theorem Accounts.checks_returned (h : Accounts rows₀ rows journal) {id : Uuid} {row : Flight}
    {r : Reservation} (hrow : rows.lookup (.flight r.flightID) = some row)
    (hr : rows.lookup (.reservation id) = some r) (hactive : r.status = .active) :
    (changeSeats r.seatCount row).checks = true := by
  obtain ⟨htotal, hnonneg, hprice, _⟩ := row.checks_iff.mp (h.checks hrow)
  have hcount := h.positive id r hr
  have hheld := seatCount_le_activeSeats h hr hactive
  have hcapacity := h.capacity hrow
  refine Flight.checks_iff _ |>.mpr ⟨htotal, ?_, hprice, ?_⟩
  · simp only [changeSeats]
    omega
  · simp only [changeSeats]
    omega

/-! ## The rows after a commit -/

/-- Committing new versions of a flight and a reservation. -/
theorem union_writes (f id : Uuid) (row : Flight) (r : Reservation) (rows : Rows) :
    ((∅ : Rows).insert (.flight f) row).insert (.reservation id) r ∪ rows =
      (rows.insert (.flight f) row).insert (.reservation id) r := by
  rw [← AList.insert_union, ← AList.insert_union, AList.empty_union]

section Commit

variable {f id : Uuid} {row row' : Flight} {r : Reservation}

theorem lookup_flight_commit (g : Uuid) :
    ((rows.insert (.flight f) row').insert (.reservation id) r).lookup (.flight g) =
      if g = f then some row' else rows.lookup (.flight g) := by
  rw [AList.lookup_insert_ne (by simp)]
  by_cases hg : g = f
  · subst hg
    rw [AList.lookup_insert, if_pos rfl]
  · rw [AList.lookup_insert_ne (by simpa using hg), if_neg hg]

theorem lookup_reservation_commit (id' : Uuid) :
    ((rows.insert (.flight f) row').insert (.reservation id) r).lookup (.reservation id') =
      if id' = id then some r else rows.lookup (.reservation id') := by
  by_cases hid : id' = id
  · subst hid
    rw [AList.lookup_insert, if_pos rfl]
  · rw [AList.lookup_insert_ne (by simpa using hid), AList.lookup_insert_ne (by simp),
      if_neg hid]

theorem activeSeats_commit (g : Uuid) :
    activeSeats g ((rows.insert (.flight f) row').insert (.reservation id) r) =
      activeSeats g rows + (activeWeight g (.reservation id) r -
        rows.weightAt (activeWeight g) (.reservation id)) := by
  have hflight : activeSeats g (rows.insert (.flight f) row') = activeSeats g rows := by
    rw [activeSeats, AList.total_insert]
    have hold : rows.weightAt (activeWeight g) (.flight f) = 0 := by
      unfold AList.weightAt
      split <;> rfl
    rw [hold]
    simp [activeWeight, activeSeats]
  rw [activeSeats, AList.total_insert, ← activeSeats, hflight,
    AList.weightAt_congr (AList.lookup_insert_ne (by simp))]

/-- Every flight's account after a commit that moves `change` seats between
    flight `f` and the reservations. -/
theorem flightAccount_commit (h : Accounts rows₀ rows journal) {change : Int} {b : Uuid}
    (hrow : rows.lookup (.flight f) = some row) (hr : r.flightID = f)
    (hold : ∀ old, rows.lookup (.reservation id) = some old →
      old.flightID = f)
    (hnonneg : 0 ≤ row.availableSeats + change)
    (hbalance : activeWeight f (.reservation id) r -
      rows.weightAt (activeWeight f) (.reservation id) = -change)
    (g : Uuid) (row₀ now : Flight) (h₀ : rows₀.lookup (.flight g) = some row₀)
    (hnow : ((rows.insert (.flight f) (changeSeats change row)).insert
      (.reservation id) r).lookup (.flight g) = some now) :
    FlightAccount g rows₀ ((rows.insert (.flight f) (changeSeats change row)).insert
      (.reservation id) r) (journal ++ [⟨f, b, change⟩]) row₀ now := by
  rw [lookup_flight_commit] at hnow
  by_cases hg : g = f
  · subst hg
    rw [if_pos rfl, Option.some.injEq] at hnow
    subst hnow
    have haccount := h.flight g row₀ row h₀ hrow
    have hseats := haccount.seats
    have havailable := haccount.available
    have hversion := haccount.version
    refine ⟨?_, ?_, ?_, hnonneg, haccount.total, haccount.price⟩
    · rw [activeSeats_commit, hbalance]
      simp only [changeSeats]
      omega
    · simp only [changeSeats, changesOf_append, List.sum_append]
      simp [changesOf] at havailable ⊢
      omega
    · simp only [changeSeats, changesOf_append, List.length_append]
      simp [changesOf] at hversion ⊢
      omega
  · rw [if_neg hg] at hnow
    have haccount := h.flight g row₀ now h₀ hnow
    have hchanges : changesOf g (journal ++ [⟨f, b, change⟩]) = changesOf g journal := by
      rw [changesOf_append]
      simp [changesOf, Ne.symm hg]
    have hnew : activeWeight g (.reservation id) r = 0 := by
      simp [activeWeight, hr, Ne.symm hg]
    have hbefore : rows.weightAt (activeWeight g) (.reservation id) = 0 := by
      cases hlookup : rows.lookup (.reservation id) with
      | none => exact AList.weightAt_of_lookup_none hlookup
      | some old =>
          rw [AList.weightAt_of_lookup hlookup]
          simp [activeWeight, hold old hlookup, Ne.symm hg]
    refine ⟨?_, ?_, ?_, haccount.nonneg, haccount.total, haccount.price⟩
    · rw [activeSeats_commit, hnew, hbefore]
      simpa using haccount.seats
    · rw [hchanges]
      exact haccount.available
    · rw [hchanges]
      exact haccount.version

theorem kept_commit (h : Accounts rows₀ rows journal)
    (hrow : rows.lookup (.flight f) = some row) (g : Uuid) :
    (((rows.insert (.flight f) row').insert (.reservation id) r).lookup (.flight g)).isSome ↔
      (rows₀.lookup (.flight g)).isSome := by
  rw [lookup_flight_commit, ← h.kept g]
  by_cases hg : g = f
  · subst hg
    simp [hrow]
  · rw [if_neg hg]

theorem unique_commit (h : ∀ id id' (r r' : Reservation),
      rows.lookup (.reservation id) = some r → rows.lookup (.reservation id') = some r' →
      r.bookingID = r'.bookingID → id = id')
    (hbooking : ∀ id' (r' : Reservation), rows.lookup (.reservation id') = some r' →
      r'.bookingID = r.bookingID → id' = id) (id₁ id₂ : Uuid) (r₁ r₂ : Reservation)
    (h₁ : ((rows.insert (.flight f) row').insert (.reservation id) r).lookup
      (.reservation id₁) = some r₁)
    (h₂ : ((rows.insert (.flight f) row').insert (.reservation id) r).lookup
      (.reservation id₂) = some r₂) (hequal : r₁.bookingID = r₂.bookingID) : id₁ = id₂ := by
  rw [lookup_reservation_commit] at h₁ h₂
  split at h₁
  · split at h₂
    · rename_i heq₁ heq₂
      exact heq₁.trans heq₂.symm
    · rename_i heq₁ _
      simp only [Option.some.injEq] at h₁
      subst h₁
      exact heq₁.trans (hbooking id₂ r₂ h₂ hequal.symm).symm
  · split at h₂
    · rename_i heq₂
      simp only [Option.some.injEq] at h₂
      subst h₂
      exact (hbooking id₁ r₁ h₁ hequal).trans heq₂.symm
    · exact h id₁ id₂ r₁ r₂ h₁ h₂ hequal

theorem parent_commit (h : ∀ id (r : Reservation), rows.lookup (.reservation id) = some r →
      (rows.lookup (.flight r.flightID)).isSome)
    (hrow : rows.lookup (.flight f) = some row) (hr : r.flightID = f) (id' : Uuid)
    (r' : Reservation)
    (hr' : ((rows.insert (.flight f) row').insert (.reservation id) r).lookup
      (.reservation id') = some r') :
    (((rows.insert (.flight f) row').insert (.reservation id) r).lookup
      (.flight r'.flightID)).isSome := by
  have hkept : ∀ g, (rows.lookup (.flight g)).isSome →
      (((rows.insert (.flight f) row').insert (.reservation id) r).lookup (.flight g)).isSome := by
    intro g hg
    rw [lookup_flight_commit]
    split
    · rfl
    · exact hg
  refine hkept _ ?_
  rw [lookup_reservation_commit] at hr'
  split at hr'
  · simp only [Option.some.injEq] at hr'
    subst hr'
    rw [hr, hrow]
    rfl
  · exact h id' r' hr'

theorem positive_commit (h : ∀ id (r : Reservation), rows.lookup (.reservation id) = some r →
      0 < r.seatCount) (hr : 0 < r.seatCount) (id' : Uuid) (r' : Reservation)
    (hr' : ((rows.insert (.flight f) row').insert (.reservation id) r).lookup
      (.reservation id') = some r') : 0 < r'.seatCount := by
  rw [lookup_reservation_commit] at hr'
  split at hr'
  · simp only [Option.some.injEq] at hr'
    subst hr'
    exact hr
  · exact h id' r' hr'

/-- A commit that passes the `CHECK` constraints keeps the tables well formed. -/
theorem Tables.commit (h : Tables rows) (hrow : rows.lookup (.flight f) = some row)
    (hchecks : row'.checks = true) (hr : r.flightID = f) (hpositive : 0 < r.seatCount)
    (hbooking : ∀ id' (r' : Reservation), rows.lookup (.reservation id') = some r' →
      r'.bookingID = r.bookingID → id' = id) :
    Tables ((rows.insert (.flight f) row').insert (.reservation id) r) := by
  refine ⟨unique_commit h.unique hbooking, parent_commit h.parent hrow hr,
    positive_commit h.positive hpositive, fun g now hnow => ?_⟩
  rw [lookup_flight_commit] at hnow
  split at hnow
  · rw [← Option.some.inj hnow]
    exact hchecks
  · exact h.checks g now hnow

end Commit

/-- A booking without a reservation has no entry in the history. -/
theorem Accounts.no_entry (h : Accounts rows₀ rows journal) {b : Uuid}
    (habsent : ∀ id (r : Reservation), rows.lookup (.reservation id) = some r →
      r.bookingID ≠ b) : ∀ entry ∈ journal, entry.bookingID ≠ b := by
  intro entry hentry heq
  obtain ⟨_, id, r, hr, hbooking, _⟩ := h.entry entry hentry
  exact habsent id r hr (hbooking.trans heq)

theorem returnsOf_eq_nil {b : Uuid} (h : ∀ entry ∈ journal, entry.bookingID ≠ b) :
    returnsOf b journal = [] := by
  simp only [returnsOf, List.filter_eq_nil_iff, decide_eq_true_eq, not_and]
  exact fun entry hentry hb => absurd hb (h entry hentry)

theorem deductionsOf_eq_nil {b : Uuid} (h : ∀ entry ∈ journal, entry.bookingID ≠ b) :
    deductionsOf b journal = [] := by
  simp only [deductionsOf, List.filter_eq_nil_iff, decide_eq_true_eq, not_and]
  exact fun entry hentry hb => absurd hb (h entry hentry)

/-- Committing a new reservation and the seats it takes keeps the accounts. -/
theorem Accounts.reserve (h : Accounts rows₀ rows journal) {f id b : Uuid} {row : Flight}
    {n : Int} (hrow : rows.lookup (.flight f) = some row) (hn : 0 < n)
    (havailable : n ≤ row.availableSeats) (hid : rows.lookup (.reservation id) = none)
    (habsent : ∀ id (r : Reservation), rows.lookup (.reservation id) = some r →
      r.bookingID ≠ b) :
    Accounts rows₀ ((rows.insert (.flight f) (changeSeats (-n) row)).insert
      (.reservation id) ⟨f, b, n, .active⟩) (journal ++ [⟨f, b, -n⟩]) := by
  have hnone := h.no_entry habsent
  have hbooking : ∀ id' (r' : Reservation), rows.lookup (.reservation id') = some r' →
      r'.bookingID = b → id' = id :=
    fun id' r' hr' heq => absurd heq (habsent id' r' hr')
  refine ⟨h.initial, unique_commit h.unique hbooking, parent_commit h.parent hrow rfl,
    positive_commit h.positive hn, kept_commit h hrow, ?_, ?_, ?_, ?_, ?_, ?_⟩
  · refine flightAccount_commit h hrow rfl ?_ (by omega) ?_
    · intro old hold
      rw [hid] at hold
      cases hold
    · rw [AList.weightAt_of_lookup_none hid]
      simp [activeWeight]
  · intro entry hentry
    rcases List.mem_append.mp hentry with hold | hnew
    · obtain ⟨hchange, id', r', hr', hbooking, hflight⟩ := h.entry entry hold
      refine ⟨hchange, id', r', ?_, hbooking, hflight⟩
      rw [lookup_reservation_commit, if_neg, hr']
      rintro rfl
      rw [hid] at hr'
      cases hr'
    · simp only [List.mem_singleton] at hnew
      subst hnew
      refine ⟨by simp; omega, id, ⟨f, b, n, .active⟩, ?_, rfl, rfl⟩
      rw [lookup_reservation_commit, if_pos rfl]
  · intro b'
    rw [returnsOf_append]
    have hnew : returnsOf b' [⟨f, b, -n⟩] = [] := by
      simp [returnsOf]
      omega
    rw [hnew, List.append_nil]
    exact h.returned b'
  · intro id' r' hr' hactive
    rw [returnsOf_append]
    have hnew : returnsOf r'.bookingID [⟨f, b, -n⟩] = [] := by
      simp [returnsOf]
      omega
    rw [hnew, List.append_nil]
    rw [lookup_reservation_commit] at hr'
    split at hr'
    · simp only [Option.some.injEq] at hr'
      subst hr'
      exact returnsOf_eq_nil hnone
    · exact h.unreturned id' r' hr' hactive
  · intro id' r' hr' h₀
    rw [deductionsOf_append]
    rw [lookup_reservation_commit] at hr'
    split at hr'
    · simp only [Option.some.injEq] at hr'
      subst hr'
      rw [deductionsOf_eq_nil hnone]
      simp [deductionsOf]
      omega
    · have hb : r'.bookingID ≠ b := habsent id' r' hr'
      rw [h.deducted id' r' hr' h₀]
      simp [deductionsOf, Ne.symm hb]
  · intro id' r' hr' h₀ hsettled
    rw [lookup_reservation_commit] at hr'
    split at hr'
    · simp only [Option.some.injEq] at hr'
      subst hr'
      exact absurd rfl hsettled
    · have hnew : returnsOf r'.bookingID [⟨f, b, -n⟩] = [] := by
        simp [returnsOf]
        omega
      rw [returnsOf_append, hnew, List.append_nil]
      exact h.settled id' r' hr' h₀ hsettled

/-- Committing a release and the seats it returns keeps the accounts. -/
theorem Accounts.release (h : Accounts rows₀ rows journal) {id : Uuid} {row : Flight}
    {r : Reservation} (hrow : rows.lookup (.flight r.flightID) = some row)
    (hr : rows.lookup (.reservation id) = some r) (hactive : r.status = .active) :
    Accounts rows₀ ((rows.insert (.flight r.flightID) (changeSeats r.seatCount row)).insert
      (.reservation id) (markReleased r))
      (journal ++ [⟨r.flightID, r.bookingID, r.seatCount⟩]) := by
  have hn : 0 < r.seatCount := h.positive id r hr
  obtain ⟨row₀, h₀, haccount⟩ := h.flight_of_lookup hrow
  have hnonneg := haccount.nonneg
  have hunique : ∀ id' (r' : Reservation), rows.lookup (.reservation id') = some r' →
      r'.bookingID = r.bookingID → id' = id :=
    fun id' r' hr' hbooking => h.unique id' id r' r hr' hr hbooking
  refine ⟨h.initial, unique_commit h.unique hunique, parent_commit h.parent hrow rfl,
    positive_commit h.positive hn, kept_commit h hrow, ?_, ?_, ?_, ?_, ?_, ?_⟩
  · refine flightAccount_commit h hrow rfl ?_ (by omega) ?_
    · intro old hold
      rw [hr, Option.some.injEq] at hold
      rw [← hold]
    · rw [AList.weightAt_of_lookup hr]
      simp [activeWeight, markReleased, hactive]
  · intro entry hentry
    rcases List.mem_append.mp hentry with hold | hnew
    · obtain ⟨hchange, id', r', hr', hbooking, hflight⟩ := h.entry entry hold
      by_cases hid : id' = id
      · subst hid
        rw [hr, Option.some.injEq] at hr'
        subst hr'
        refine ⟨hchange, id', markReleased r, ?_, hbooking, hflight⟩
        rw [lookup_reservation_commit, if_pos rfl]
      · refine ⟨hchange, id', r', ?_, hbooking, hflight⟩
        rw [lookup_reservation_commit, if_neg hid, hr']
    · simp only [List.mem_singleton] at hnew
      subst hnew
      refine ⟨by simp; omega, id, markReleased r, ?_, rfl, rfl⟩
      rw [lookup_reservation_commit, if_pos rfl]
  · intro b
    rw [returnsOf_append, List.length_append]
    by_cases hb : b = r.bookingID
    · subst hb
      rw [h.unreturned id r hr hactive]
      simp [returnsOf, hn]
    · have hnew : returnsOf b [⟨r.flightID, r.bookingID, r.seatCount⟩] = [] := by
        simp [returnsOf, Ne.symm hb]
      rw [hnew]
      exact h.returned b
  · intro id' r' hr' hactive'
    rw [lookup_reservation_commit] at hr'
    split at hr'
    · simp only [Option.some.injEq] at hr'
      subst hr'
      cases hactive'
    · rename_i hid
      have hb : r'.bookingID ≠ r.bookingID := fun heq => hid (hunique id' r' hr' heq)
      rw [returnsOf_append, h.unreturned id' r' hr' hactive']
      simp [returnsOf, Ne.symm hb]
  · intro id' r' hr' hnew
    rw [deductionsOf_append]
    have hlast : ∀ b, deductionsOf b [⟨r.flightID, r.bookingID, r.seatCount⟩] = [] := by
      intro b
      simp [deductionsOf]
      omega
    rw [hlast, List.append_nil]
    rw [lookup_reservation_commit] at hr'
    split at hr'
    · rename_i hid
      simp only [Option.some.injEq] at hr'
      subst hr' hid
      exact h.deducted id' r hr hnew
    · exact h.deducted id' r' hr' hnew
  · intro id' r' hr' hnew hsettled
    rw [returnsOf_append]
    rw [lookup_reservation_commit] at hr'
    split at hr'
    · simp only [Option.some.injEq] at hr'
      subst hr'
      have hbefore : returnsOf (markReleased r).bookingID journal = [] :=
        h.unreturned id r hr hactive
      rw [hbefore]
      simp [returnsOf, markReleased, hn]
    · rename_i hid
      have hb : r'.bookingID ≠ r.bookingID := fun heq => hid (hunique id' r' hr' heq)
      rw [h.settled id' r' hr' hnew hsettled]
      simp [returnsOf, Ne.symm hb]

/-- An operator's status change keeps the accounts. -/
theorem Accounts.status (h : Accounts rows₀ rows journal) {f : Uuid} {row : Flight}
    (hrow : rows.lookup (.flight f) = some row) (status : FlightStatus) :
    Accounts rows₀ (rows.insert (.flight f) { row with status := status }) journal := by
  have hreservation : ∀ id, (rows.insert (.flight f) { row with status := status }).lookup
      (.reservation id) = rows.lookup (.reservation id) :=
    fun id => AList.lookup_insert_ne (by simp)
  have hactive : ∀ g, activeSeats g (rows.insert (.flight f) { row with status := status }) =
      activeSeats g rows := by
    intro g
    rw [activeSeats, AList.total_insert, AList.weightAt_of_lookup hrow]
    simp [activeWeight, activeSeats]
  have hkept : ∀ g, ((rows.insert (.flight f) { row with status := status }).lookup
      (.flight g)).isSome ↔ (rows.lookup (.flight g)).isSome := by
    intro g
    by_cases hg : g = f
    · subst hg
      simp [hrow]
    · rw [AList.lookup_insert_ne (by simpa using hg)]
  refine ⟨h.initial, ?_, ?_, ?_, fun g => (hkept g).trans (h.kept g), ?_, ?_, h.returned,
    ?_, ?_, ?_⟩
  · intro id id' r r' hr hr'
    rw [hreservation] at hr hr'
    exact h.unique id id' r r' hr hr'
  · intro id r hr
    rw [hreservation] at hr
    exact (hkept _).mpr (h.parent id r hr)
  · intro id r hr
    rw [hreservation] at hr
    exact h.positive id r hr
  · intro g row₀ now h₀ hnow
    have haccount : ∃ before : Flight, rows.lookup (.flight g) = some before ∧
        now.availableSeats = before.availableSeats ∧ now.version = before.version ∧
        now.totalSeats = before.totalSeats ∧ now.priceCents = before.priceCents := by
      by_cases hg : g = f
      · subst hg
        rw [AList.lookup_insert, Option.some.injEq] at hnow
        subst hnow
        exact ⟨row, hrow, rfl, rfl, rfl, rfl⟩
      · rw [AList.lookup_insert_ne (by simpa using hg)] at hnow
        exact ⟨now, hnow, rfl, rfl, rfl, rfl⟩
    obtain ⟨before, hbefore, havailable, hversion, htotal, hprice⟩ := haccount
    have hg := h.flight g row₀ before h₀ hbefore
    exact ⟨by rw [hactive, havailable]; exact hg.seats, by rw [havailable]; exact hg.available,
      by rw [hversion]; exact hg.version, by rw [havailable]; exact hg.nonneg,
      by rw [htotal]; exact hg.total, by rw [hprice]; exact hg.price⟩
  · intro entry hentry
    obtain ⟨hchange, id, r, hr, hfacts⟩ := h.entry entry hentry
    exact ⟨hchange, id, r, (hreservation id).trans hr, hfacts⟩
  · intro id r hr
    rw [hreservation] at hr
    exact h.unreturned id r hr
  · intro id r hr
    rw [hreservation] at hr
    exact h.deducted id r hr
  · intro id r hr
    rw [hreservation] at hr
    exact h.settled id r hr

/-! ## The ledger as a transition system -/

/-- What one step of the service does to the committed rows and their history:
    nothing, a whole reservation, a whole release or a status change. -/
inductive SeatStep (rows : Rows) (journal : List SeatChange) :
    Rows → List SeatChange → Prop where
  | unchanged : SeatStep rows journal rows journal
  | reserve {f id b : Uuid} {row : Flight} {n : Int}
      (hrow : rows.lookup (.flight f) = some row) (hscheduled : row.status = .scheduled)
      (hn : 0 < n) (havailable : n ≤ row.availableSeats)
      (hid : rows.lookup (.reservation id) = none)
      (habsent : ∀ id (r : Reservation), rows.lookup (.reservation id) = some r →
        r.bookingID ≠ b) :
      SeatStep rows journal ((rows.insert (.flight f) (changeSeats (-n) row)).insert
        (.reservation id) ⟨f, b, n, .active⟩) (journal ++ [⟨f, b, -n⟩])
  | release {id : Uuid} {row : Flight} {r : Reservation}
      (hrow : rows.lookup (.flight r.flightID) = some row)
      (hr : rows.lookup (.reservation id) = some r) (hactive : r.status = .active) :
      SeatStep rows journal
        ((rows.insert (.flight r.flightID) (changeSeats r.seatCount row)).insert
          (.reservation id) (markReleased r))
        (journal ++ [⟨r.flightID, r.bookingID, r.seatCount⟩])
  | status {f : Uuid} {row : Flight} (hrow : rows.lookup (.flight f) = some row)
      (status : FlightStatus) :
      SeatStep rows journal (rows.insert (.flight f) { row with status := status }) journal

variable {rows' : Rows} {journal' : List SeatChange}

theorem SeatStep.accounts (h : SeatStep rows journal rows' journal')
    (haccounts : Accounts rows₀ rows journal) : Accounts rows₀ rows' journal' := by
  cases h with
  | unchanged => exact haccounts
  | reserve hrow _ hn havailable hid habsent =>
      exact haccounts.reserve hrow hn havailable hid habsent
  | release hrow hr hactive => exact haccounts.release hrow hr hactive
  | status hrow status => exact haccounts.status hrow status

theorem SeatStep.journal_grows (h : SeatStep rows journal rows' journal') :
    journal <+: journal' := by
  cases h with
  | unchanged => exact List.prefix_refl journal
  | reserve => exact List.prefix_append journal _
  | release => exact List.prefix_append journal _
  | status => exact List.prefix_refl journal

/-- A reservation keeps its booking, flight and seats, and one that is not
    `ACTIVE` never changes again. -/
theorem SeatStep.reservation (h : SeatStep rows journal rows' journal') {id : Uuid}
    {r : Reservation} (hr : rows.lookup (.reservation id) = some r) :
    rows'.lookup (.reservation id) = some r ∨
      (r.status = .active ∧ rows'.lookup (.reservation id) = some (markReleased r)) := by
  cases h with
  | unchanged => exact Or.inl hr
  | @reserve f id' b row n _ _ _ _ hid _ =>
      refine Or.inl ?_
      rw [lookup_reservation_commit, if_neg, hr]
      rintro rfl
      rw [hid] at hr
      cases hr
  | @release id' row r' _ hr' hactive =>
      rw [lookup_reservation_commit]
      by_cases hid : id = id'
      · subst hid
        rw [hr', Option.some.injEq] at hr
        subst hr
        exact Or.inr ⟨hactive, if_pos rfl⟩
      · exact Or.inl (by rw [if_neg hid, hr])
  | status =>
      exact Or.inl ((AList.lookup_insert_ne (by simp)).trans hr)

theorem SeatStep.kept (h : SeatStep rows journal rows' journal') {id : Uuid} {r : Reservation}
    (hr : rows.lookup (.reservation id) = some r) :
    ∃ r' : Reservation, rows'.lookup (.reservation id) = some r' ∧
      r'.bookingID = r.bookingID ∧ r'.flightID = r.flightID ∧ r'.seatCount = r.seatCount ∧
      (r'.status = .active → r.status = .active) := by
  rcases h.reservation hr with hsame | ⟨_, hreleased⟩
  · exact ⟨r, hsame, rfl, rfl, rfl, fun hactive => hactive⟩
  · exact ⟨_, hreleased, rfl, rfl, rfl, fun hactive => by cases hactive⟩

/-- `version` counts the changes of `available_seats`. -/
theorem SeatStep.version (h : SeatStep rows journal rows' journal')
    (haccounts : Accounts rows₀ rows journal) {f : Uuid} {row row' : Flight}
    (hrow : rows.lookup (.flight f) = some row)
    (hrow' : rows'.lookup (.flight f) = some row') :
    (row'.version = row.version ∧ row'.availableSeats = row.availableSeats) ∨
      (row'.version = row.version + 1 ∧ row'.availableSeats ≠ row.availableSeats) := by
  cases h with
  | unchanged =>
      rw [hrow, Option.some.injEq] at hrow'
      subst hrow'
      exact Or.inl ⟨rfl, rfl⟩
  | @reserve g id b row₁ n hrow₁ _ hn _ _ _ =>
      rw [lookup_flight_commit] at hrow'
      split at hrow'
      · rename_i hf
        subst hf
        rw [hrow, Option.some.injEq] at hrow₁
        simp only [Option.some.injEq] at hrow'
        subst hrow₁ hrow'
        exact Or.inr ⟨rfl, by simp only [changeSeats]; omega⟩
      · rw [hrow, Option.some.injEq] at hrow'
        subst hrow'
        exact Or.inl ⟨rfl, rfl⟩
  | @release id row₁ r hrow₁ hr _ =>
      have hn : 0 < r.seatCount := haccounts.positive id r hr
      rw [lookup_flight_commit] at hrow'
      split at hrow'
      · rename_i hf
        subst hf
        rw [hrow, Option.some.injEq] at hrow₁
        simp only [Option.some.injEq] at hrow'
        subst hrow₁ hrow'
        exact Or.inr ⟨rfl, by simp only [changeSeats]; omega⟩
      · rw [hrow, Option.some.injEq] at hrow'
        subst hrow'
        exact Or.inl ⟨rfl, rfl⟩
  | @status g row₁ hrow₁ status =>
      by_cases hf : f = g
      · subst hf
        rw [hrow, Option.some.injEq] at hrow₁
        rw [AList.lookup_insert, Option.some.injEq] at hrow'
        subst hrow₁ hrow'
        exact Or.inl ⟨rfl, rfl⟩
      · rw [AList.lookup_insert_ne (by simpa using hf), hrow, Option.some.injEq] at hrow'
        subst hrow'
        exact Or.inl ⟨rfl, rfl⟩

/-- Two snapshots of a flight with equal `version` have equal
    `available_seats`. -/
theorem Accounts.equal_versions (h : Accounts rows₀ rows journal)
    (h' : Accounts rows₀ rows' journal') (hgrows : journal <+: journal') {f : Uuid}
    {row row' : Flight} (hrow : rows.lookup (.flight f) = some row)
    (hrow' : rows'.lookup (.flight f) = some row') (hversion : row.version = row'.version) :
    row.availableSeats = row'.availableSeats := by
  obtain ⟨row₀, h₀, haccount⟩ := h.flight_of_lookup hrow
  have haccount' := h'.flight f row₀ row' h₀ hrow'
  have hchanges : changesOf f journal <+: changesOf f journal' := by
    obtain ⟨later, rfl⟩ := hgrows
    rw [changesOf_append]
    exact List.prefix_append _ _
  have hlength : (changesOf f journal).length = (changesOf f journal').length := by
    have hv := haccount.version
    have hv' := haccount'.version
    omega
  rw [haccount.available, haccount'.available, hchanges.eq_of_length hlength]

end SoaHomework.FlightService
