import SoaHomework.BookingService
import SoaHomework.CachedAnswers
import SoaHomework.Calendar

/-!
# A search for the flights of a date

`GET /flights` with a date, from the text of the query to the rows of the
flight service and back to the body of the answer. The date is a text, then a
timestamp, and the flight service reads the timestamp of second 0 as no date.
The body is dropped when a time of a flight has no JSON text.
-/

namespace SoaHomework.DatedSearch

open StatementProgram Grpc FlightService FlightCache Calendar
open BookingService (HttpError writeGrpcError storableText)

/-! ## The handler -/

structure FlightResponse where
  id : String
  airline : String
  flightNumber : String
  origin : String
  destination : String
  departureTime : Int
  arrivalTime : Int
  totalSeats : Int
  availableSeats : Int
  priceCents : Int
  status : String
deriving DecidableEq, Repr

/-- `GetStatus().String()` -/
def statusText : FlightStatus → String
  | .scheduled => "FLIGHT_STATUS_SCHEDULED"
  | .departed => "FLIGHT_STATUS_DEPARTED"
  | .cancelled => "FLIGHT_STATUS_CANCELLED"
  | .completed => "FLIGHT_STATUS_COMPLETED"

def toFlightResponse (f : ProtoFlight) : FlightResponse where
  id := f.id
  airline := f.airline
  flightNumber := f.flightNumber
  origin := f.origin
  destination := f.destination
  departureTime := f.departureTime
  arrivalTime := f.arrivalTime
  totalSeats := f.totalSeats
  availableSeats := f.availableSeats
  priceCents := f.priceCents
  status := statusText f.status

/-- `timestamppb.New` of midnight UTC: the `Seconds`. -/
def timestamp (date : Date) : Int := date.days * 86400

/-- The date of the query. -/
def departureDate (dateStr : String) : Except HttpError (Option Int) :=
  if dateStr = "" then .ok none
  else
    match Date.parse dateStr with
    | none => .error ⟨400, "неверная дата"⟩
    | some date => .ok (some (timestamp date))

/-- What an answer is written from: the flights, or the text of an error. -/
inductive Body where
  | flights (out : List FlightResponse)
  | error (msg : String)
deriving DecidableEq, Repr

/-- An answer; the body is missing when nothing has been written. -/
structure HttpResponse where
  status : Nat
  body : Option Body
deriving DecidableEq, Repr

/-- `MarshalJSON` of a `time.Time`, which writes years of four digits only. -/
def marshals (seconds : Int) : Bool :=
  let year := (civil (utcDate seconds)).1
  decide (0 ≤ year) && decide (year < 10000)

/-- `Encode` writes the body as a whole. -/
def Body.encodes : Body → Bool
  | .flights out => out.all fun f => marshals f.departureTime && marshals f.arrivalTime
  | .error _ => true

/-- The status is written first, and an error of `Encode` is dropped. -/
def writeJSON (status : Nat) (v : Body) : HttpResponse :=
  ⟨status, if v.encodes then some v else none⟩

def writeError (err : HttpError) : HttpResponse := writeJSON err.status (.error err.error)

/-- `client` is what a call of the flight service is answered with. -/
def searchFlights (client : SearchFlightsRequest → Except CallError (List ProtoFlight))
    (origin destination dateStr : String) : HttpResponse :=
  if origin = "" ∨ destination = "" then
    writeError ⟨400, "origin и destination обязательны"⟩
  else
    match departureDate dateStr with
    | .error err => writeError err
    | .ok ts =>
        match client ⟨origin, destination, ts⟩ with
        | .error err => writeError (writeGrpcError err)
        | .ok flights => writeJSON 200 (.flights (flights.map toFlightResponse))

/-! ## The flight service -/

/-- A value that PostgreSQL's `timestamp` has. What is outside of its days
    stands for the infinities, which are not scanned into a `time.Time`. -/
def finite (seconds : Int) : Bool :=
  decide (-2440588 ≤ utcDate seconds) && decide (utcDate seconds < 106762940)

/-- The query fails for a parameter with a NUL and for a row that is not
    scanned. -/
def refuses (rows : Rows) : Command → Bool
  | .searchFlights origin destination date =>
      !(storableText origin && storableText destination &&
        (searchRows rows origin destination date).all fun f =>
          finite f.row.departureTime && finite f.row.arrivalTime)
  | _ => false

/-- The flight service without a cache, on the rows `rows`. -/
def answer (ids : UuidText) (rows : Rows) (req : SearchFlightsRequest) :
    Except CallError (List ProtoFlight) :=
  match (FlightCache.handle ids false (.searchFlights req)).alone
      (fun command => exec 0 command (if refuses rows command then .failure else .proceed 0))
      (ServerState.ofRows rows) with
  | some (.ok (.flights flights), _) => .ok flights
  | some (.error error, _) => .error (.status error)
  | _ => .error .other

/-! ## What a search is for -/

/-- The flight is scheduled on the route. -/
def OnRoute (origin destination : String) (f : Flight) : Prop :=
  bpchar f.origin = bpchar origin ∧ bpchar f.destination = bpchar destination ∧
    f.status = .scheduled

/-- The flights of the table that meet a condition, in the order of their
    departure. -/
structure Lists (rows : Rows) (wanted : Flight → Prop) (flights : List FlightRow) : Prop where
  mem : ∀ f, f ∈ flights ↔ rows.lookup (.flight f.id) = some f.row ∧ wanted f.row
  nodup : flights.Nodup
  sorted : flights.Pairwise fun f g => f.row.departureTime ≤ g.row.departureTime

/-- Two lists of flights, of which one condition implies the other. -/
theorem Lists.congr {rows : Rows} {wanted wanted' : Flight → Prop} {flights : List FlightRow}
    (h : Lists rows wanted flights)
    (heq : ∀ id (row : Flight), rows.lookup (.flight id) = some row → (wanted row ↔ wanted' row)) :
    Lists rows wanted' flights := by
  refine ⟨fun f => ?_, h.nodup, h.sorted⟩
  rw [h.mem f]
  exact and_congr_right fun hrow => heq f.id f.row hrow

/-- A list that is as long as the list of fewer flights lists them. -/
theorem Lists.of_length_eq {rows : Rows} {wanted wanted' : Flight → Prop}
    {flights flights' : List FlightRow} (h : Lists rows wanted flights)
    (h' : Lists rows wanted' flights') (himp : ∀ row, wanted' row → wanted row)
    (hlength : flights.length = flights'.length) (f : FlightRow) (hf : f ∈ flights) :
    wanted' f.row := by
  have hsubset : flights' ⊆ flights := by
    intro g hg
    obtain ⟨hrow, hwanted⟩ := (h'.mem g).mp hg
    exact (h.mem g).mpr ⟨hrow, himp g.row hwanted⟩
  have hperm : flights'.Perm flights :=
    (List.subperm_of_subset h'.nodup hsubset).perm_of_length_le hlength.le
  exact ((h'.mem f).mp (hperm.mem_iff.mpr hf)).2

/-! ## What a search finds -/

section Search

variable {rows : Rows} {origin destination : String}

/-- The condition of the query. -/
def Selected (origin destination : String) (date : Option Int) (f : Flight) : Prop :=
  OnRoute origin destination f ∧ ∀ day, date = some day → f.flightDate = day

theorem selects_iff (date : Option Int) (f : Flight) :
    selects origin destination date f = true ↔ Selected origin destination date f := by
  cases date <;> simp [selects, Selected, OnRoute, and_assoc]

theorem lists_searchRows (date : Option Int) :
    Lists rows (Selected origin destination date) (searchRows rows origin destination date) := by
  refine ⟨fun f => ?_, ?_, List.pairwise_insertionSort _ _⟩
  · rw [mem_searchRows, selects_iff]
  · rw [searchRows, (List.perm_insertionSort _ _).nodup_iff]
    apply rows.nodupKeys.nodup.filterMap
    rintro ⟨k, row⟩ ⟨k', row'⟩ f hf hf'
    cases k with
    | reservation id => cases hf
    | flight id =>
        cases k' with
        | reservation id => cases hf'
        | flight id' =>
            simp only [Option.mem_def, Option.ite_none_right_eq_some, Option.some.injEq] at hf hf'
            obtain ⟨_, rfl⟩ := hf
            obtain ⟨_, heq⟩ := hf'
            cases heq
            rfl

/-- The year of a date is one of its era of 400 years. -/
theorem civil_year_mem (date : Int) :
    400 * ((date + 719468) / 146097) ≤ (civil date).1 ∧
      (civil date).1 ≤ 400 * ((date + 719468) / 146097) + 400 := by
  simp only [civil]
  generalize hera : (date + 719468) / 146097 = era
  generalize hday : (date + 719468) % 146097 = dayOfEra
  have hrange : 0 ≤ dayOfEra ∧ dayOfEra < 146097 := by omega
  have hyear : 0 ≤ (dayOfEra - dayOfEra / 1460 + dayOfEra / 36524 - dayOfEra / 146096) / 365 ∧
      (dayOfEra - dayOfEra / 1460 + dayOfEra / 36524 - dayOfEra / 146096) / 365 < 400 := by
    omega
  split <;> omega

/-- A time with a JSON text is none of the infinities. -/
theorem finite_of_marshals {seconds : Int} (h : marshals seconds = true) :
    finite seconds = true := by
  simp only [marshals, Bool.and_eq_true, decide_eq_true_eq] at h
  simp only [finite, Bool.and_eq_true, decide_eq_true_eq]
  have hyear := civil_year_mem (utcDate seconds)
  omega

/-- The flight service answers with the rows that it selects, unless the query
    fails. -/
theorem answer_eq (ids : UuidText) {req : SearchFlightsRequest} (horigin : req.origin ≠ "")
    (hdestination : req.destination ≠ "") : answer ids rows req =
      if refuses rows (.searchFlights req.origin req.destination req.date) then
        .error (.status ⟨.internal, "ошибка поиска"⟩)
      else
        .ok ((searchRows rows req.origin req.destination req.date).map (toProtoFlight ids)) := by
  have hgiven : (req.origin == "" || req.destination == "") = false := by
    simp [horigin, hdestination]
  have hstart : ∃ next, FlightCache.handle ids false (.searchFlights req) =
      .step (.searchFlights req.origin req.destination req.date) next ∧
      (∀ error, next (.error error) = .fail ⟨.internal, "ошибка поиска"⟩) ∧
      ∀ flights, next (.ok flights) = .ret (.flights (flights.map (toProtoFlight ids))) := by
    simp only [FlightCache.handle, FlightCache.searchFlights, hgiven, Program.raiseIf,
      Bool.false_eq_true, if_false, Program.ret_bind]
    exact ⟨_, rfl, fun error => rfl, fun flights => rfl⟩
  obtain ⟨next, hstep, herror, hok⟩ := hstart
  rw [answer, hstep]
  cases hrefuses : refuses rows (.searchFlights req.origin req.destination req.date) with
  | true => simp only [Program.alone, exec, hrefuses, if_true, herror]
  | false =>
      simp only [Program.alone, exec, hrefuses, Bool.false_eq_true, if_false, hok]
      rfl

/-- The date of the query of a search. -/
def queried (date : Date) : Option Int := if date = epoch then none else some date.days

/-- The date that the flight service makes of the timestamp of a date. -/
theorem date_timestamp (date : Date) :
    SearchFlightsRequest.date ⟨origin, destination, some (timestamp date)⟩ = queried date := by
  have hzero : timestamp date = 0 ↔ date = epoch := by
    rw [← days_eq_zero_iff, timestamp]
    omega
  have hday : utcDate (timestamp date) = date.days := by
    rw [utcDate, timestamp]
    omega
  simp only [SearchFlightsRequest.date, queried, ne_eq, hzero, hday, ite_not]

/-- The flights as the body of an answer shows them. -/
def shown (ids : UuidText) (flights : List FlightRow) : Body :=
  .flights (flights.map fun f => toFlightResponse (toProtoFlight ids f))

/-- The times of the flight have JSON texts. -/
def Timely (f : Flight) : Prop :=
  marshals f.departureTime = true ∧ marshals f.arrivalTime = true

theorem encodes_shown {ids : UuidText} {flights : List FlightRow} :
    (shown ids flights).encodes = true ↔ ∀ f ∈ flights, Timely f.row := by
  simp [shown, Body.encodes, Timely, toFlightResponse, toProtoFlight]

theorem not_refuses_iff {date : Option Int} :
    refuses rows (.searchFlights origin destination date) = false ↔
      storableText origin = true ∧ storableText destination = true ∧
        ∀ f ∈ searchRows rows origin destination date,
          finite f.row.departureTime = true ∧ finite f.row.arrivalTime = true := by
  simp [refuses, and_assoc]

/-- The rows that a search with a date finds. -/
def found (rows : Rows) (origin destination : String) (date : Date) : List FlightRow :=
  searchRows rows origin destination (queried date)

/-- The answer to a search with a date. -/
theorem searchFlights_eq (ids : UuidText) (horigin : origin ≠ "") (hdestination : destination ≠ "")
    {dateStr : String} {date : Date} (hdate : Date.parse dateStr = some date) :
    searchFlights (answer ids rows) origin destination dateStr =
      if refuses rows (.searchFlights origin destination (queried date)) then
        ⟨500, some (.error "ошибка поиска")⟩
      else writeJSON 200 (shown ids (found rows origin destination date)) := by
  have hne : dateStr ≠ "" := by
    rintro rfl
    cases hdate
  have hts : departureDate dateStr = .ok (some (timestamp date)) := by
    simp [departureDate, hne, hdate]
  have hanswer : answer ids rows ⟨origin, destination, some (timestamp date)⟩ = _ :=
    answer_eq ids horigin hdestination
  rw [date_timestamp] at hanswer
  simp only [searchFlights, horigin, hdestination, or_self, if_false, hts]
  rw [hanswer]
  cases hrefuses : refuses rows (.searchFlights origin destination (queried date)) with
  | true => rfl
  | false =>
      simp only [Bool.false_eq_true, if_false, List.map_map, shown]
      rfl

/-- A search is answered with flights if no text has a NUL and every flight that
    it finds has times with a JSON text. -/
theorem answered_iff (ids : UuidText) (horigin : origin ≠ "") (hdestination : destination ≠ "")
    {dateStr : String} {date : Date} (hdate : Date.parse dateStr = some date)
    {flights : List FlightRow} :
    searchFlights (answer ids rows) origin destination dateStr = ⟨200, some (shown ids flights)⟩ ↔
      storableText origin = true ∧ storableText destination = true ∧
        (∀ f ∈ found rows origin destination date, Timely f.row) ∧
        shown ids (found rows origin destination date) = shown ids flights := by
  rw [searchFlights_eq ids horigin hdestination hdate]
  constructor
  · intro h
    cases hrefuses : refuses rows (.searchFlights origin destination (queried date)) with
    | true =>
        rw [hrefuses, if_pos rfl] at h
        cases h
    | false =>
        rw [hrefuses, if_neg Bool.false_ne_true] at h
        obtain ⟨hfrom, hto, _⟩ := not_refuses_iff.mp hrefuses
        simp only [writeJSON, HttpResponse.mk.injEq, true_and, Option.ite_none_right_eq_some,
          Option.some.injEq] at h
        exact ⟨hfrom, hto, encodes_shown.mp h.1, h.2⟩
  · rintro ⟨hfrom, hto, htimely, heq⟩
    have hrefuses := not_refuses_iff.mpr ⟨hfrom, hto, fun f hf =>
      ⟨finite_of_marshals (htimely f hf).1, finite_of_marshals (htimely f hf).2⟩⟩
    rw [hrefuses, if_neg Bool.false_ne_true, writeJSON, if_pos (encodes_shown.mpr htimely), heq]

end Search

/-- A search with a date finds exactly the flights of that date, unless the date
    is that of second 0: then it finds the flights of all dates. It is answered
    with them unless a text has a NUL or a time has no JSON text. -/
theorem dated_search (ids : UuidText) (rows : Rows) {origin destination dateStr : String}
    {date : Date} (horigin : origin ≠ "") (hdestination : destination ≠ "")
    (hdate : Date.parse dateStr = some date) :
    (∃ flights, Lists rows (fun f => OnRoute origin destination f ∧ f.flightDate = date.days)
        flights ∧
      searchFlights (answer ids rows) origin destination dateStr =
        ⟨200, some (shown ids flights)⟩) ↔
      storableText origin = true ∧ storableText destination = true ∧
        (dateStr ≠ "1970-01-01" ∨ ∀ id (row : Flight), rows.lookup (.flight id) = some row →
          OnRoute origin destination row → row.flightDate = date.days) ∧
        ∀ id (row : Flight), rows.lookup (.flight id) = some row →
          OnRoute origin destination row → row.flightDate = date.days → Timely row := by
  have hepoch : dateStr = "1970-01-01" ↔ date = epoch := by
    obtain ⟨_, rfl⟩ := parse_eq_some.mp hdate
    have htext : epoch.text = "1970-01-01" := by decide
    constructor
    · intro h
      rw [h, ← htext] at hdate
      have hself : Date.parse epoch.text = some epoch := parse_eq_some.mpr ⟨by decide, rfl⟩
      exact Option.some.inj (hdate.symm.trans hself)
    · rintro rfl
      exact htext
  have hfound : Lists rows _ (found rows origin destination date) :=
    lists_searchRows (queried date)
  constructor
  · rintro ⟨flights, hflights, heq⟩
    obtain ⟨hfrom, hto, htimely, heq⟩ := (answered_iff ids horigin hdestination hdate).mp heq
    refine ⟨hfrom, hto, ?_, fun id row hrow hroute hday => ?_⟩
    · rw [ne_eq, hepoch]
      refine or_iff_not_imp_left.mpr fun hdate id row hrow hroute => ?_
      rw [not_not] at hdate
      rw [queried, if_pos hdate] at hfound
      have hlength := congrArg List.length (Body.flights.inj heq)
      rw [List.length_map, List.length_map] at hlength
      have hmem := (hfound.mem ⟨id, row⟩).mpr ⟨hrow, hroute, by simp⟩
      exact (hfound.of_length_eq hflights (fun _ h => ⟨h.1, by simp⟩) hlength ⟨id, row⟩ hmem).2
    · refine htimely ⟨id, row⟩ ((hfound.mem ⟨id, row⟩).mpr ⟨hrow, hroute, ?_⟩)
      by_cases hdate : date = epoch
      · simp [queried, hdate]
      · simp [queried, hdate, hday]
  · rintro ⟨hfrom, hto, hall, htimely⟩
    have hlists : Lists rows (fun f => OnRoute origin destination f ∧ f.flightDate = date.days)
        (found rows origin destination date) := by
      refine hfound.congr fun id row hrow => ?_
      by_cases hdate : date = epoch
      · rw [queried, if_pos hdate]
        rw [ne_eq, hepoch, hdate] at hall
        have hall := hall.resolve_left (by simp)
        constructor
        · rintro ⟨hroute, _⟩
          exact ⟨hroute, hdate ▸ hall id row hrow hroute⟩
        · rintro ⟨hroute, _⟩
          exact ⟨hroute, by simp⟩
      · rw [queried, if_neg hdate]
        simp [Selected, eq_comm]
    refine ⟨_, hlists, (answered_iff ids horigin hdestination hdate).mpr
      ⟨hfrom, hto, fun f hf => ?_, rfl⟩⟩
    obtain ⟨hrow, hroute, hday⟩ := (hlists.mem f).mp hf
    exact htimely f.id f.row hrow hroute hday

/-! ## One flight in the table -/

/-- A flight of the first of May 2026. -/
def mayFlight : Flight where
  airline := "SU"
  flightNumber := "SU100"
  origin := "SVO"
  destination := "LED"
  departureTime := 1777629600
  arrivalTime := 1777635000
  totalSeats := 3
  availableSeats := 3
  priceCents := 500000
  status := .scheduled
  version := 0
  flightDate := 20574

def mayRows : Rows := (∅ : Rows).insert (.flight 1) mayFlight

def mayDay : Date := ⟨2026, 5, 1, by omega, by omega, Nat.one_pos, Nat.le_of_ble_eq_true rfl⟩

theorem timely_mayFlight : Timely mayFlight := ⟨by decide, by decide⟩

/-- The only flight of the table. -/
theorem eq_mayFlight {id : Uuid} {row : Flight} (h : mayRows.lookup (.flight id) = some row) :
    id = 1 ∧ row = mayFlight := by
  by_cases hid : id = 1
  · rw [hid, mayRows, AList.lookup_insert, Option.some.injEq] at h
    exact ⟨hid, h.symm⟩
  · rw [mayRows, AList.lookup_insert_ne (by simpa using hid), AList.lookup_empty] at h
    cases h

theorem dated_search_may_day :
    ∃ flights, Lists mayRows (fun f => OnRoute "SVO" "LED" f ∧ f.flightDate = mayDay.days)
        flights ∧
      searchFlights (answer uuidText mayRows) "SVO" "LED" "2026-05-01" =
        ⟨200, some (shown uuidText flights)⟩ :=
  (dated_search uuidText mayRows (by decide) (by decide)
    (parse_eq_some.mpr ⟨by decide, by decide⟩)).mpr
    ⟨by decide, by decide, Or.inl (by decide),
      fun _ _ hrow _ _ => (eq_mayFlight hrow).2 ▸ timely_mayFlight⟩

/-- A search for the first of January 1970 finds the flight of 2026. -/
theorem epoch_search_finds_may :
    Date.parse "1970-01-01" = some epoch ∧ mayFlight.flightDate ≠ epoch.days ∧
      searchFlights (answer uuidText mayRows) "SVO" "LED" "1970-01-01" =
        ⟨200, some (shown uuidText [⟨1, mayFlight⟩])⟩ ∧
      ¬ ∃ flights, Lists mayRows (fun f => OnRoute "SVO" "LED" f ∧ f.flightDate = epoch.days)
          flights ∧
        searchFlights (answer uuidText mayRows) "SVO" "LED" "1970-01-01" =
          ⟨200, some (shown uuidText flights)⟩ := by
  have hdate : Date.parse "1970-01-01" = some epoch := parse_eq_some.mpr ⟨by decide, by decide⟩
  have hanswer : searchFlights (answer uuidText mayRows) "SVO" "LED" "1970-01-01" =
      ⟨200, some (shown uuidText [⟨1, mayFlight⟩])⟩ := by
    rw [searchFlights_eq uuidText (by decide) (by decide) hdate]
    decide
  refine ⟨hdate, by decide, hanswer, ?_⟩
  rintro ⟨flights, hflights, heq⟩
  have hnone : flights = [] := by
    apply List.eq_nil_iff_forall_not_mem.mpr
    intro f hf
    obtain ⟨hrow, _, hday⟩ := (hflights.mem f).mp hf
    rw [(eq_mayFlight hrow).2] at hday
    revert hday
    decide
  rw [hnone, hanswer] at heq
  cases heq

end SoaHomework.DatedSearch
