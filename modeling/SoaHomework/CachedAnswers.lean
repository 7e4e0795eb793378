import SoaHomework.FlightCache

/-!
# Cached answers in sequence

Requests that run one after the other, each alone to its end, with the cache
and without it. A payload is right as long as every change of a flight deletes
all payloads that show it. `ReserveSeats` deletes by the text of its own
request and the searches by columns that the query does not read, so texts and
dates decide whether it does.
-/

namespace SoaHomework.FlightCache

open StatementProgram FlightService Grpc VersionedCache

/-! ## A request that runs alone -/

/-- The committed rows with their history, and Redis. -/
structure Site where
  ledger : Ledger
  redis : Redis

/-- A program that runs alone; no statement fails. -/
def runAlone {ε α : Type} (generated : Uuid) (program : CacheProgram ε α) (store : State)
    (redis : Redis) : Option (Except ε α × State × Redis) :=
  (program.alone (fun command => exec 0 command (.proceed generated))
    ⟨store, redis, fun _ => none, fun _ => false⟩).map fun (result, s) => (result, s.store, s.redis)

def Request.run (ids : UuidText) (cached : Bool) (request : Request) (generated : Uuid)
    (site : Site) : Option (Except RpcError Response × Site) :=
  (runAlone generated (handle ids cached request) site.ledger.rest site.redis).map
    fun (result, store, redis) => (result, ⟨⟨store.db.rows, store.journal⟩, redis⟩)

/-- A request, with the key that `gen_random_uuid()` gives, or a key of Redis
    that expires. -/
inductive Turn where
  | request (request : Request) (generated : Uuid)
  | expire (key : CacheKey)
  | expireVersion (key : CacheKey)

/-- The answers of a sequential run. -/
def answers (ids : UuidText) (cached : Bool) :
    List Turn → Site → Option (List (Except RpcError Response))
  | [], _ => some []
  | .request request generated :: turns, site =>
      (request.run ids cached generated site).bind fun (result, site') =>
        (answers ids cached turns site').map (result :: ·)
  | .expire key :: turns, site =>
      answers ids cached turns { site with redis := site.redis.delete key }
  | .expireVersion key :: turns, site =>
      answers ids cached turns { site with redis := site.redis.deleteVersion key }

/-- The committed rows `rows` and an empty cache. -/
def Site.ofRows (rows : Rows) : Site := ⟨⟨rows, []⟩, .empty⟩

section RunAlone

variable {ε ε' α β : Type} {generated : Uuid} {store : State} {redis : Redis}

/-- What a program does to the database and to Redis does not depend on the
    records. -/
theorem alone_congr (p : CacheProgram ε α) {s s' : ServerState} (hstore : s.store = s'.store)
    (hredis : s.redis = s'.redis) :
    ((p.alone (fun command => exec 0 command (.proceed generated)) s).map
        fun (result, s) => (result, s.store, s.redis)) =
      (p.alone (fun command => exec 0 command (.proceed generated)) s').map
        fun (result, s) => (result, s.store, s.redis) := by
  induction p generalizing s s' with
  | ret value => simp [hstore, hredis]
  | fail error => simp [hstore, hredis]
  | step command next ih =>
      cases command with
      | db statement =>
          simp only [Program.alone, exec, hstore]
          cases proceed 0 generated s'.store statement with
          | none => rfl
          | some result =>
              refine ih result.1 ?_ ?_
              · unfold ServerState.afterStatement
                cases statement with
                | _ => rfl
              · unfold ServerState.afterStatement
                cases statement with
                | _ => exact hredis
      | searchFlights origin destination date =>
          simp only [Program.alone, exec, hstore]
          exact ih _ hstore hredis
      | get key =>
          simp only [Program.alone, exec, hredis]
          exact ih _ hstore hredis
      | del key => exact ih () hstore (congrArg (fun r => r.delete key) hredis)
      | setIfNewer key version payload =>
          exact ih () hstore (congrArg (fun r => r.setIfNewer key version payload) hredis)
      | setVersionIfNewer key version =>
          exact ih () hstore (congrArg (fun r => r.setVersionIfNewer key version) hredis)

theorem runAlone_bind (p : CacheProgram ε α) (f : α → CacheProgram ε β) :
    runAlone generated (p >>= f) store redis =
      match runAlone generated p store redis with
      | none => none
      | some (.ok value, store', redis') => runAlone generated (f value) store' redis'
      | some (.error error, store', redis') => some (.error error, store', redis') := by
  unfold runAlone
  rw [Program.alone_bind]
  cases p.alone (fun command => exec 0 command (.proceed generated))
      ⟨store, redis, fun _ => none, fun _ => false⟩ with
  | none => rfl
  | some outcome =>
      obtain ⟨result, s⟩ := outcome
      cases result with
      | ok value => exact alone_congr (f value) rfl rfl
      | error error => rfl

theorem runAlone_attempt (p : CacheProgram ε α) :
    runAlone generated (p.attempt : CacheProgram ε' (Except ε α)) store redis =
      (runAlone generated p store redis).map fun outcome => (.ok outcome.1, outcome.2) := by
  unfold runAlone
  rw [Program.alone_attempt, Option.map_map, Option.map_map]
  rfl

/-- A command is executed and its answer handed on. -/
theorem runAlone_command (c : Command) (f : Reply c → CacheProgram RpcError β) :
    runAlone generated (command c >>= f) store redis =
      match exec 0 c (.proceed generated) ⟨store, redis, fun _ => none, fun _ => false⟩ with
      | none => none
      | some (answer, s) => runAlone generated (f answer) s.store s.redis := by
  have hstep : command c >>= f = .step c f := rfl
  rw [hstep, runAlone, Program.alone]
  cases exec 0 c (.proceed generated) ⟨store, redis, fun _ => none, fun _ => false⟩ with
  | none => rfl
  | some result => exact alone_congr (f result.1) rfl rfl

/-- The statement environment of a transaction that runs alone. -/
abbrev calm : Statement → Bool := fun _ => false

/-- A transaction of the store runs as it does without a cache. -/
theorem runAlone_onStore (p : Program Statement Answer ε α) :
    runAlone generated (onStore p) store redis =
      (p.alone (executeAlone 0 generated calm) store).map fun (result, store') =>
        (result, store', redis) := by
  induction p generalizing store with
  | ret value => rfl
  | fail error => rfl
  | step statement next ih =>
      have hexec : executeAlone 0 generated calm statement store =
          proceed 0 generated store statement := rfl
      simp only [onStore, runAlone, Program.alone, exec, hexec]
      cases proceed 0 generated store statement with
      | none => rfl
      | some result =>
          rw [← ih result.1]
          refine alone_congr _ ?_ ?_
          · unfold ServerState.afterStatement
            cases statement with
            | _ => rfl
          · unfold ServerState.afterStatement
            cases statement with
            | _ => rfl

end RunAlone

/-! ## What the methods do -/

section Methods

variable {ids : UuidText} {cached : Bool} {generated : Uuid} {store : State} {redis : Redis}
  {β : Type}

def hitFlight (redis : Redis) (key : CacheKey) : Option FlightRow :=
  match redis.payload key with
  | some (.flight f) => some f
  | _ => none

def hitSearch (redis : Redis) (key : CacheKey) : Option (List FlightRow) :=
  match redis.payload key with
  | some (.flights fs) => some fs
  | _ => none

theorem payload_of_hitFlight {key : CacheKey} {f : FlightRow} (h : hitFlight redis key = some f) :
    redis.payload key = some (.flight f) := by
  unfold hitFlight at h
  split at h
  · rename_i g hpayload
    rw [hpayload, Option.some.inj h]
  · cases h

theorem payload_of_hitSearch {key : CacheKey} {fs : List FlightRow}
    (h : hitSearch redis key = some fs) : redis.payload key = some (.flights fs) := by
  unfold hitSearch at h
  split at h
  · rename_i gs hpayload
    rw [hpayload, Option.some.inj h]
  · cases h

/-- What `invalidate` makes of Redis when it reads the row `row`. -/
def invalidated (ids : UuidText) (redis : Redis) (text : String) (id : Uuid)
    (row : Option Flight) : Redis :=
  match row with
  | none => redis.delete (flightKey text)
  | some f =>
      let day := formatDate (utcDate f.departureTime)
      (((((redis.delete (flightKey text)).delete (searchKey f.origin f.destination day)).delete
        (searchKey f.origin f.destination "any")).setVersionIfNewer
        (flightKey (ids.text id)) f.version).setVersionIfNewer
        (searchKey f.origin f.destination day) f.version).setVersionIfNewer
        (searchKey f.origin f.destination "any") f.version

/-- A read of the cache, of which the caller picks its own kind of payload. -/
theorem runAlone_get {α : Type} {key : CacheKey} {pick : Option Payload → CacheProgram RpcError α}
    {found : α} (h : pick (redis.payload key) = .ret found) (f : α → CacheProgram RpcError β) :
    runAlone generated ((command (.get key) >>= pick) >>= f) store redis =
      runAlone generated (f found) store redis := by
  rw [runAlone_bind, runAlone_command]
  simp only [exec]
  rw [h]
  rfl

theorem runAlone_getCached (key : CacheKey) (f : Option FlightRow → CacheProgram RpcError β) :
    runAlone generated (getCached cached key >>= f) store redis =
      runAlone generated (f (if cached then hitFlight redis key else none)) store redis := by
  cases cached with
  | false => rfl
  | true =>
      simp only [getCached, if_true]
      refine runAlone_get ?_ f
      unfold hitFlight
      rcases redis.payload key with _ | ⟨f⟩ | ⟨fs⟩ <;> rfl

theorem runAlone_getSearch (key : CacheKey)
    (f : Option (List FlightRow) → CacheProgram RpcError β) :
    runAlone generated (getSearch cached key >>= f) store redis =
      runAlone generated (f (if cached then hitSearch redis key else none)) store redis := by
  cases cached with
  | false => rfl
  | true =>
      simp only [getSearch, if_true]
      refine runAlone_get ?_ f
      unfold hitSearch
      rcases redis.payload key with _ | ⟨f⟩ | ⟨fs⟩ <;> rfl

theorem runAlone_setIfNewer (key : CacheKey) (version : Int) (payload : Payload)
    (f : Unit → CacheProgram RpcError β) :
    runAlone generated (setIfNewer cached key version payload >>= f) store redis =
      runAlone generated (f ()) store
        (if cached then redis.setIfNewer key version payload else redis) := by
  cases cached with
  | false => rfl
  | true =>
      simp only [setIfNewer, if_true]
      rw [runAlone_command]
      rfl

theorem alone_getFlight_calm (id : Uuid) :
    (Store.getFlight id).alone (executeAlone 0 generated calm) store =
      some (match (store.db.read 0 (.flight id) : Option Flight) with
        | none => .error .notFound
        | some row => .ok row, store) := by
  rw [Store.getFlight, alone_query]
  simp only [executeAlone, Bool.false_eq_true, if_false, execute, proceed]
  cases (store.db.read 0 (.flight id) : Option Flight) with
  | none => rfl
  | some row => rfl

/-- The flight that the database has. -/
theorem runAlone_readFlight (id : Uuid)
    (f : Except StoreError Flight → CacheProgram RpcError β) :
    runAlone generated ((onStore (Store.getFlight id)).attempt >>= f) store redis =
      runAlone generated (f (match (store.db.read 0 (.flight id) : Option Flight) with
        | none => .error .notFound
        | some row => .ok row)) store redis := by
  rw [runAlone_bind, runAlone_attempt, runAlone_onStore, alone_getFlight_calm]
  rfl

theorem runAlone_invalidate (text : String) (id : Uuid) (f : Unit → CacheProgram RpcError β) :
    runAlone generated (invalidate ids cached text id >>= f) store redis =
      runAlone generated (f ()) store (if cached then
        invalidated ids redis text id (store.db.read 0 (.flight id)) else redis) := by
  cases cached with
  | false => rfl
  | true =>
      simp only [invalidate, if_true]
      rw [runAlone_bind, runAlone_command]
      simp only [exec, ServerState.del]
      rw [runAlone_readFlight]
      cases (store.db.read 0 (.flight id) : Option Flight) with
      | none => rfl
      | some row => rfl

/-- An id that is not accepted. -/
def rejected (ids : UuidText) (text : String) : Bool := text == "" || (ids.parse text).isNone

theorem run_getFlight_rejected {text : String} (h : rejected ids text = true) :
    ∃ error, ∀ cached redis, runAlone generated (handle ids cached (.getFlight text)) store redis =
      some (.error error, store, redis) := by
  by_cases htext : text = ""
  · subst htext
    exact ⟨_, fun cached redis => rfl⟩
  · have hparse : ids.parse text = none := by simpa [rejected, htext] using h
    refine ⟨⟨.invalidArgument, "flight_id должен быть UUID"⟩, fun cached redis => ?_⟩
    simp only [handle, getFlight, Program.raiseIf, beq_iff_eq, htext, if_false, parseId, hparse,
      Program.ret_bind, Program.fail_bind]
    rfl

theorem run_getFlight {text : String} {id : Uuid} (htext : text ≠ "")
    (hparse : ids.parse text = some id) :
    runAlone generated (handle ids cached (.getFlight text)) store redis =
      match (if cached then hitFlight redis (flightKey text) else none) with
      | some f => some (.ok (.flight (toProtoFlight ids f)), store, redis)
      | none =>
          match (store.db.read 0 (.flight id) : Option Flight) with
          | none => some (.error (Server.getError .notFound), store, redis)
          | some row => some (.ok (.flight (toProtoFlight ids ⟨id, row⟩)), store,
              if cached then redis.setIfNewer (flightKey text) row.version (.flight ⟨id, row⟩)
              else redis) := by
  simp only [handle, getFlight, Program.raiseIf, beq_iff_eq, htext, if_false, parseId, hparse,
    Program.ret_bind]
  rw [runAlone_bind, runAlone_getCached]
  cases (if cached then hitFlight redis (flightKey text) else none) with
  | some f => rfl
  | none =>
      simp only []
      rw [runAlone_readFlight]
      cases (store.db.read 0 (.flight id) : Option Flight) with
      | none => rfl
      | some row =>
          simp only [runAlone_setIfNewer]
          rfl

theorem run_searchFlights_rejected {req : SearchFlightsRequest}
    (h : (req.origin == "" || req.destination == "") = true) :
    ∃ error, ∀ cached redis,
      runAlone generated (handle ids cached (.searchFlights req)) store redis =
        some (.error error, store, redis) := by
  refine ⟨⟨.invalidArgument, "origin/destination обязательны"⟩, fun cached redis => ?_⟩
  simp only [handle, searchFlights, h, Program.raiseIf, if_true, Program.fail_bind]
  rfl

theorem run_searchFlights {req : SearchFlightsRequest}
    (h : (req.origin == "" || req.destination == "") = false) :
    runAlone generated (handle ids cached (.searchFlights req)) store redis =
      match (if cached then hitSearch redis req.key else none) with
      | some fs => some (.ok (.flights (fs.map (toProtoFlight ids))), store, redis)
      | none =>
          let fs := searchRows store.db.rows req.origin req.destination req.date
          some (.ok (.flights (fs.map (toProtoFlight ids))), store,
            if cached then redis.setIfNewer req.key (maxVersion fs) (.flights fs) else redis) := by
  simp only [handle, searchFlights, h, Program.raiseIf, Bool.false_eq_true, if_false,
    Program.ret_bind]
  rw [runAlone_bind, runAlone_getSearch]
  cases (if cached then hitSearch redis req.key else none) with
  | some fs => rfl
  | none =>
      simp only []
      rw [runAlone_command]
      simp only [exec, runAlone_setIfNewer]
      rfl

/-- How a method answers after its transaction, which has changed the flight
    `id r` of the reservation `r`. -/
def settle (ids : UuidText) (cached : Bool) (onError : StoreError → RpcError)
    (text : Reservation → String) (id : Reservation → Uuid) (redis : Redis)
    (outcome : Option (Except StoreError Reservation × State)) :
    Option (Except RpcError Response × State × Redis) :=
  match outcome with
  | none => none
  | some (.error error, store) => some (.error (onError error), store, redis)
  | some (.ok r, store) => some (.ok (.reservation r), store,
      if cached then invalidated ids redis (text r) (id r) (store.db.read 0 (.flight (id r)))
      else redis)

theorem runAlone_settle {ids : UuidText} {cached : Bool}
    (transaction : Program Statement Answer StoreError Reservation)
    (onError : StoreError → RpcError) (text : Reservation → String) (id : Reservation → Uuid)
    (method : CacheProgram RpcError Reservation)
    (hmethod : method = (onStore transaction).attempt >>= fun outcome =>
      match outcome with
      | .error error => .fail (onError error)
      | .ok r => invalidate ids cached (text r) (id r) >>= fun _ => .ret r) :
    runAlone generated (method >>= fun r => .ret (.reservation r)) store redis =
      settle ids cached onError text id redis
        (transaction.alone (executeAlone 0 generated calm) store) := by
  rw [hmethod, runAlone_bind, runAlone_bind, runAlone_attempt, runAlone_onStore]
  cases transaction.alone (executeAlone 0 generated calm) store with
  | none => rfl
  | some outcome =>
      obtain ⟨result, store'⟩ := outcome
      cases result with
      | error error => rfl
      | ok r =>
          simp only [Option.map_some, runAlone_invalidate]
          rfl

/-- The request of a reservation that reaches the transaction. -/
structure ReserveValid (ids : UuidText) (flightId bookingId : String) (seatCount : Int)
    (id bookingID : Uuid) : Prop where
  given : (flightId == "" || bookingId == "") = false
  flight : ids.parse flightId = some id
  booking : ids.parse bookingId = some bookingID
  positive : 0 < seatCount

theorem run_reserveSeats {flightId bookingId : String} {seatCount : Int} {id bookingID : Uuid}
    (h : ReserveValid ids flightId bookingId seatCount id bookingID) :
    runAlone generated (handle ids cached (.reserveSeats flightId bookingId seatCount))
        store redis =
      settle ids cached Server.reserveError (fun _ => flightId) (fun _ => id) redis
        ((Store.reserveSeats id bookingID seatCount).alone (executeAlone 0 generated calm)
          store) := by
  refine runAlone_settle _ Server.reserveError (fun _ => flightId) (fun _ => id)
    (reserveSeats ids cached flightId bookingId seatCount) ?_
  have hcount : decide (seatCount ≤ 0) = false := decide_eq_false (Int.not_le.mpr h.positive)
  unfold reserveSeats
  rw [h.given, hcount]
  simp only [Program.raiseIf, Bool.false_eq_true, if_false, parseId, h.flight, h.booking,
    Program.ret_bind]
  rfl

theorem run_reserveSeats_invalid {flightId bookingId : String} {seatCount : Int}
    (h : ∀ id bookingID, ¬ ReserveValid ids flightId bookingId seatCount id bookingID) :
    ∃ error, ∀ cached redis,
      runAlone generated (handle ids cached (.reserveSeats flightId bookingId seatCount))
        store redis = some (.error error, store, redis) := by
  simp only [handle, reserveSeats]
  by_cases hgiven : (flightId == "" || bookingId == "") = true
  · rw [hgiven]
    exact ⟨_, fun _ _ => rfl⟩
  · rw [Bool.eq_false_iff.mpr hgiven]
    simp only [Program.raiseIf, Bool.false_eq_true, if_false, parseId, Program.ret_bind]
    cases hflight : ids.parse flightId with
    | none => exact ⟨_, fun _ _ => rfl⟩
    | some id =>
        cases hbooking : ids.parse bookingId with
        | none => exact ⟨_, fun _ _ => rfl⟩
        | some bookingID =>
            by_cases hcount : seatCount ≤ 0
            · rw [decide_eq_true hcount]
              exact ⟨_, fun _ _ => rfl⟩
            · exact absurd ⟨Bool.eq_false_iff.mpr hgiven, hflight, hbooking,
                Int.not_le.mp hcount⟩ (h id bookingID)

theorem run_releaseReservation_valid {bookingId : String} {bookingID : Uuid}
    (hgiven : bookingId ≠ "") (hparse : ids.parse bookingId = some bookingID) :
    runAlone generated (handle ids cached (.releaseReservation bookingId)) store redis =
      settle ids cached Server.releaseError (fun r => ids.text r.flightID)
        (fun r => r.flightID) redis
        ((Store.releaseReservation bookingID).alone (executeAlone 0 generated calm) store) := by
  refine runAlone_settle _ Server.releaseError (fun r => ids.text r.flightID)
    (fun r => r.flightID) (releaseReservation ids cached bookingId) ?_
  simp only [releaseReservation, Program.raiseIf, beq_iff_eq, hgiven, if_false, parseId, hparse,
    Program.ret_bind]
  rfl

theorem run_releaseReservation_rejected {bookingId : String}
    (h : rejected ids bookingId = true) :
    ∃ error, ∀ cached redis,
      runAlone generated (handle ids cached (.releaseReservation bookingId)) store redis =
        some (.error error, store, redis) := by
  simp only [handle, releaseReservation]
  by_cases hgiven : bookingId = ""
  · subst hgiven
    exact ⟨_, fun _ _ => rfl⟩
  · have hparse : ids.parse bookingId = none := by simpa [rejected, hgiven] using h
    simp only [Program.raiseIf, beq_iff_eq, hgiven, if_false, parseId, hparse,
      Program.ret_bind, Program.fail_bind]
    exact ⟨_, fun _ _ => rfl⟩

end Methods

/-! ## Changes of flights -/

/-- Whenever the program ends well, transaction 0 has nothing pending. -/
def EndsIdle {α : Type} (generated : Uuid) (p : Program Statement Answer StoreError α) : Prop :=
  ∀ s value s', p.alone (executeAlone 0 generated calm) s = some (.ok value, s') →
    s'.db.pending 0 = ∅

section EndsIdle

variable {α : Type} {generated : Uuid}

theorem endsIdle_fail (error : StoreError) :
    EndsIdle generated (.fail error : Program Statement Answer StoreError α) := by
  intro s value s' h
  cases h

theorem endsIdle_query {statement : Statement}
    {next : Result statement → Program Statement Answer StoreError α}
    (hnext : ∀ value, EndsIdle generated (next value)) :
    EndsIdle generated (query statement >>= next) := by
  intro s value s' h
  rw [alone_query] at h
  cases hexec : executeAlone 0 generated calm statement s with
  | none => simp [hexec] at h
  | some outcome =>
      obtain ⟨answer, s₁⟩ := outcome
      cases answer with
      | ok result =>
          simp only [hexec] at h
          exact hnext result s₁ value s' h
      | error error => simp [hexec] at h

theorem endsIdle_raiseIf {failed : Bool} {error : StoreError}
    {next : Unit → Program Statement Answer StoreError α}
    (hnext : EndsIdle generated (next ())) :
    EndsIdle generated (Program.raiseIf failed error >>= next) := by
  cases failed with
  | true => exact endsIdle_fail error
  | false => exact hnext

theorem endsIdle_commit (value : α) :
    EndsIdle generated (query .commit >>= fun _ => .ret value) := by
  intro s value' s' h
  rw [alone_query] at h
  simp only [executeAlone, Bool.false_eq_true, if_false, execute, proceed, Program.alone_ret,
    Option.some.injEq, Prod.mk.injEq] at h
  rw [← h.2]
  exact (RowStore.finish_idle s.db 0 (s.db.view 0)).pending

theorem endsIdle_reserveSeats (flightID bookingID : Uuid) (seatCount : Int) :
    EndsIdle generated (Store.reserveSeats flightID bookingID seatCount) := by
  refine endsIdle_query fun found => ?_
  cases found with
  | none => exact endsIdle_fail _
  | some found =>
      refine endsIdle_raiseIf (endsIdle_raiseIf (endsIdle_query fun existing => ?_))
      refine endsIdle_raiseIf (endsIdle_query fun _ => endsIdle_query fun r => ?_)
      exact endsIdle_commit r

theorem endsIdle_releaseReservation (bookingID : Uuid) :
    EndsIdle generated (Store.releaseReservation bookingID) := by
  refine endsIdle_query fun found => ?_
  cases found with
  | none => exact endsIdle_fail _
  | some found =>
      refine endsIdle_raiseIf (endsIdle_query fun _ => endsIdle_query fun r => ?_)
      exact endsIdle_commit r

end EndsIdle

/-- Changing the seats of flight `id` passes the `CHECK` constraints. -/
def fitsSeats (rows : Rows) (id : Uuid) (change : Int) : Bool :=
  match (rows.lookup (.flight id) : Option Flight) with
  | some row => (changeSeats change row).checks
  | none => false

/-- The flight that a request changes on the rows, and the text under which it
    deletes the payload of the flight. -/
def changed (ids : UuidText) (rows : Rows) : Request → Option (Uuid × String)
  | .reserveSeats flightId bookingId seatCount =>
      match ids.parse flightId, ids.parse bookingId with
      | some id, some bookingID =>
          if (Rpc.reserveSeats id bookingID seatCount).accepted rows &&
            (findReservation rows bookingID).isNone then some (id, flightId) else none
      | _, _ => none
  | .releaseReservation bookingId =>
      match (ids.parse bookingId).bind (findReservation rows) with
      | some (_, r) =>
          if r.status = .active && fitsSeats rows r.flightID r.seatCount then
            some (r.flightID, ids.text r.flightID) else none
      | none => none
  | _ => none

/-- How `ReserveSeats` and `ReleaseReservation` run from `ledger`, with a cache
    and without one. -/
inductive Changing (ids : UuidText) (ledger : Ledger) (request : Request) (generated : Uuid) :
    Prop where
  | blocked (h : ∀ cached redis, request.run ids cached generated ⟨ledger, redis⟩ = none)
  | refused (error : RpcError) (h : ∀ cached redis,
      request.run ids cached generated ⟨ledger, redis⟩ = some (.error error, ⟨ledger, redis⟩))
  | done (id : Uuid) (text : String) (row : Flight) (change : Int) (key : Uuid)
      (written answer : Reservation) (ledger' : Ledger)
      (hchanged : changed ids ledger.rows request = some (id, text))
      (hrow : ledger.rows.lookup (.flight id) = some row)
      (hrows : ledger'.rows = (ledger.rows.insert (.flight id) (changeSeats change row)).insert
        (.reservation key) written)
      (htables : Tables ledger'.rows)
      (h : ∀ cached redis, request.run ids cached generated ⟨ledger, redis⟩ =
        some (.ok (.reservation answer), ⟨ledger', if cached then
          invalidated ids redis text id (some (changeSeats change row)) else redis⟩))

section Changing

variable {ids : UuidText} {ledger : Ledger} {generated : Uuid}

theorem Changing.of_invalid {request : Request}
    (h : ∃ error, ∀ cached redis, runAlone generated (handle ids cached request) ledger.rest
      redis = some (.error error, ledger.rest, redis)) :
    Changing ids ledger request generated := by
  obtain ⟨error, herror⟩ := h
  refine .refused error fun cached redis => ?_
  rw [Request.run, herror cached redis]
  rfl

/-- A transaction that ends with an error leaves everything. -/
theorem Changing.of_refused {request : Request} {onError : StoreError → RpcError}
    {text : Reservation → String} {id : Reservation → Uuid} {error : StoreError} {store : State}
    {alone : Option (Except StoreError Reservation × State)}
    (hrun : ∀ cached redis, request.run ids cached generated ⟨ledger, redis⟩ =
      (settle ids cached onError text id redis alone).map fun (result, store, redis) =>
        (result, ⟨⟨store.db.rows, store.journal⟩, redis⟩))
    (halone : alone = some (.error error, store))
    (hledger : (⟨store.db.rows, store.journal⟩ : Ledger) = ledger) :
    Changing ids ledger request generated := by
  refine .refused (onError error) fun cached redis => ?_
  rw [hrun, halone]
  simp only [settle, Option.map_some, hledger]

/-- The row of a flight after the commit of its change. -/
theorem read_changed {id key : Uuid} {row : Flight} {written : Reservation} {rows : Rows}
    {db : Db} (hidle : db.pending 0 = ∅)
    (hrows : db.rows = (rows.insert (.flight id) row).insert (.reservation key) written) :
    db.read 0 (.flight id) = some row := by
  rw [read_of_pending_empty hidle, hrows, lookup_flight_commit, if_pos rfl]

theorem changing_reserveSeats (htables : Tables ledger.rows)
    (flightId bookingId : String) (seatCount : Int) :
    Changing ids ledger (.reserveSeats flightId bookingId seatCount) generated := by
  by_cases hvalid : ∃ id bookingID, ReserveValid ids flightId bookingId seatCount id bookingID
  swap
  · exact .of_invalid (run_reserveSeats_invalid fun id bookingID h => hvalid ⟨id, bookingID, h⟩)
  obtain ⟨id, bookingID, hvalid⟩ := hvalid
  have hrun : ∀ cached redis,
      (Request.reserveSeats flightId bookingId seatCount).run ids cached generated
        ⟨ledger, redis⟩ =
      (settle ids cached Server.reserveError (fun _ => flightId) (fun _ => id) redis
        ((Store.reserveSeats id bookingID seatCount).alone (executeAlone 0 generated calm)
          ledger.rest)).map
        fun (result, store, redis) => (result, ⟨⟨store.db.rows, store.journal⟩, redis⟩) :=
    fun cached redis => by rw [Request.run, run_reserveSeats hvalid]
  cases halone : (Store.reserveSeats id bookingID seatCount).alone
      (executeAlone 0 generated calm) ledger.rest with
  | none => exact .blocked fun cached redis => by rw [hrun, halone]; rfl
  | some outcome =>
      obtain ⟨result, store⟩ := outcome
      have houtcome : ReserveOutcome id bookingID seatCount ⟨generated, calm, none⟩ ledger
          result ⟨store.db.rows, store.journal⟩ :=
        reserveOutcome_of_alone htables hvalid.positive halone
      generalize hledger : (⟨store.db.rows, store.journal⟩ : Ledger) = ledger' at houtcome
      cases houtcome with
      | @granted key row hrow hscheduled havailable hchecks hid habsent hcalm =>
          have hnone : findReservation ledger.rows bookingID = none := by
            cases hfound : findReservation ledger.rows bookingID with
            | none => rfl
            | some found =>
                obtain ⟨id', r'⟩ := found
                obtain ⟨hlookup, hbooking⟩ := findReservation_some hfound
                exact absurd hbooking (habsent _ _ hlookup)
          have hchanged : changed ids ledger.rows
              (.reserveSeats flightId bookingId seatCount) = some (id, flightId) := by
            have haccepted :
                (Rpc.reserveSeats id bookingID seatCount).accepted ledger.rows = true :=
              accepted_iff.mpr ⟨row, hrow, hvalid.positive, hscheduled, havailable⟩
            simp only [changed, hvalid.flight, hvalid.booking, haccepted, hnone,
              Option.isNone_none, Bool.and_self, if_true]
          have hrows := congrArg Ledger.rows hledger
          have hread := read_changed
            (endsIdle_reserveSeats id bookingID seatCount _ _ _ halone) hrows
          refine .done id flightId row (-seatCount) key _ ⟨id, bookingID, seatCount, .active⟩
            ⟨store.db.rows, store.journal⟩ hchanged hrow hrows ?_ fun cached redis => ?_
          · rw [hledger]
            exact htables.commit hrow hchecks rfl hvalid.positive fun id' r' hr' hbooking =>
              absurd hbooking (habsent id' r' hr')
          · rw [hrun, halone]
            simp only [settle, Option.map_some, hread]
      | existing hr hbooking => exact .of_refused hrun halone hledger
      | failed herror hmem hfails => exact .of_refused hrun halone hledger
      | refused herror hrefused => exact .of_refused hrun halone hledger

theorem changing_releaseReservation (htables : Tables ledger.rows)
    (bookingId : String) :
    Changing ids ledger (.releaseReservation bookingId) generated := by
  by_cases hrejected : rejected ids bookingId = true
  · exact .of_invalid (run_releaseReservation_rejected hrejected)
  simp only [rejected, Bool.or_eq_true, beq_iff_eq, Option.isNone_iff_eq_none, not_or] at hrejected
  obtain ⟨hgiven, hparse⟩ := hrejected
  obtain ⟨bookingID, hparse⟩ := Option.ne_none_iff_exists'.mp hparse
  have hrun : ∀ cached redis,
      (Request.releaseReservation bookingId).run ids cached generated ⟨ledger, redis⟩ =
      (settle ids cached Server.releaseError (fun r => ids.text r.flightID)
        (fun r => r.flightID) redis
        ((Store.releaseReservation bookingID).alone (executeAlone 0 generated calm)
          ledger.rest)).map
        fun (result, store, redis) => (result, ⟨⟨store.db.rows, store.journal⟩, redis⟩) :=
    fun cached redis => by rw [Request.run, run_releaseReservation_valid hgiven hparse]
  cases halone : (Store.releaseReservation bookingID).alone
      (executeAlone 0 generated calm) ledger.rest with
  | none => exact .blocked fun cached redis => by rw [hrun, halone]; rfl
  | some outcome =>
      obtain ⟨result, store⟩ := outcome
      have houtcome : ReleaseOutcome bookingID ⟨generated, calm, none⟩ ledger result
          ⟨store.db.rows, store.journal⟩ := releaseOutcome_of_alone htables halone
      generalize hledger : (⟨store.db.rows, store.journal⟩ : Ledger) = ledger' at houtcome
      cases houtcome with
      | @released key row old hrow hfound hactive hchecks hcalm =>
          obtain ⟨hold, _⟩ := findReservation_some hfound
          have hchanged : changed ids ledger.rows (.releaseReservation bookingId) =
              some (old.flightID, ids.text old.flightID) := by
            simp only [changed, hparse, Option.bind_some, hfound, hactive, fitsSeats, hrow, hchecks,
              decide_true, Bool.and_self, if_true]
          have hrows := congrArg Ledger.rows hledger
          have hread := read_changed
            (endsIdle_releaseReservation bookingID _ _ _ halone) hrows
          refine .done old.flightID _ row old.seatCount key _ (markReleased old)
            ⟨store.db.rows, store.journal⟩ hchanged hrow hrows ?_ fun cached redis => ?_
          · rw [hledger]
            exact htables.commit hrow hchecks rfl (htables.positive key old hold)
              fun id' r' hr' hbooking => htables.unique id' key r' old hr' hold hbooking
          · rw [hrun, halone]
            simp only [settle, Option.map_some]
            rw [show (markReleased old).flightID = old.flightID from rfl, hread]
      | failed hmem hfails => exact .of_refused hrun halone hledger
      | refused hrefused => exact .of_refused hrun halone hledger

end Changing

/-! ## Sequential runs -/

/-- Every request of the run passes a check, which sees the requests made
    before. -/
def passesTurns (ids : UuidText) (check : List Request → Site → Request → Bool) :
    List Request → List Turn → Site → Bool
  | _, [], _ => true
  | asked, .request request generated :: turns, site =>
      check asked site request &&
        match request.run ids true generated site with
        | none => true
        | some (_, site') => passesTurns ids check (request :: asked) turns site'
  | asked, .expire key :: turns, site =>
      passesTurns ids check asked turns { site with redis := site.redis.delete key }
  | asked, .expireVersion key :: turns, site =>
      passesTurns ids check asked turns { site with redis := site.redis.deleteVersion key }

/-- The request has the same answer and the same effect on the database with
    the cache and without it, and leaves what is cached in `post`. -/
inductive Agrees (ids : UuidText) (request : Request) (generated : Uuid) (ledger : Ledger)
    (redis : Redis) (post : Ledger → Redis → Prop) : Prop where
  | blocked (hcached : request.run ids true generated ⟨ledger, redis⟩ = none)
      (hplain : ∀ redis₀, request.run ids false generated ⟨ledger, redis₀⟩ = none)
  | answered (result : Except RpcError Response) (ledger' : Ledger) (redis' : Redis)
      (hcached : request.run ids true generated ⟨ledger, redis⟩ =
        some (result, ⟨ledger', redis'⟩))
      (hplain : ∀ redis₀, request.run ids false generated ⟨ledger, redis₀⟩ =
        some (result, ⟨ledger', redis₀⟩))
      (hpost : post ledger' redis')

/-- A request of the run, if it is one. -/
def Turn.request? : Turn → Option Request
  | .request made _ => some made
  | _ => none

section Runs

variable {ids : UuidText}

/-- Answers agree along a run whose requests agree one by one. -/
theorem answers_agree {P : List Request → Ledger → Redis → Prop} {kind : Request → Bool}
    {check : List Request → Site → Request → Bool}
    (hstep : ∀ asked ledger redis request generated, P asked ledger redis →
      kind request = true → check asked ⟨ledger, redis⟩ request = true →
      Agrees ids request generated ledger redis (P (request :: asked)))
    (hexpire : ∀ asked ledger redis key, P asked ledger redis →
      P asked ledger (redis.delete key))
    (hexpireVersion : ∀ asked ledger redis key, P asked ledger redis →
      P asked ledger (redis.deleteVersion key))
    {turns : List Turn} {asked : List Request} {ledger : Ledger} {redis : Redis}
    (h : P asked ledger redis)
    (hkind : ∀ turn ∈ turns, ∀ request, turn.request? = some request → kind request = true)
    (hpasses : passesTurns ids check asked turns ⟨ledger, redis⟩ = true) (redis₀ : Redis) :
    answers ids true turns ⟨ledger, redis⟩ = answers ids false turns ⟨ledger, redis₀⟩ := by
  induction turns generalizing asked ledger redis redis₀ with
  | nil => rfl
  | cons turn turns ih =>
      have hrest : ∀ turn ∈ turns, ∀ request, turn.request? = some request →
          kind request = true :=
        fun turn hturn => hkind turn (List.mem_cons_of_mem _ hturn)
      cases turn with
      | request request generated =>
          simp only [passesTurns, Bool.and_eq_true] at hpasses
          have hrequest := hkind _ List.mem_cons_self request rfl
          cases hstep asked ledger redis request generated h hrequest hpasses.1 with
          | blocked hcached hplain => simp only [answers, hcached, hplain, Option.bind_none]
          | answered result ledger' redis' hcached hplain hpost =>
              have hlater := hpasses.2
              simp only [hcached] at hlater
              simp only [answers, hcached, hplain, Option.bind_some]
              rw [ih hpost hrest hlater redis₀]
      | expire key => exact ih (hexpire _ _ _ key h) hrest hpasses _
      | expireVersion key => exact ih (hexpireVersion _ _ _ key h) hrest hpasses _

theorem payload_invalidated {redis : Redis} {text : String} {id : Uuid} {f : Flight}
    {k : CacheKey} {payload : Payload}
    (h : (invalidated ids redis text id (some f)).payload k = some payload) :
    redis.payload k = some payload ∧ k ≠ flightKey text ∧
      k ≠ searchKey f.origin f.destination (formatDate (utcDate f.departureTime)) ∧
      k ≠ searchKey f.origin f.destination "any" := by
  simp only [invalidated, Cache.payload_setVersionIfNewer] at h
  obtain ⟨hany, h⟩ := Cache.payload_delete h
  obtain ⟨hday, h⟩ := Cache.payload_delete h
  obtain ⟨hflight, h⟩ := Cache.payload_delete h
  exact ⟨h, hflight, hday, hany⟩

theorem read_rest (ledger : Ledger) (id : Uuid) :
    ledger.rest.db.read 0 (.flight id) = ledger.rows.lookup (.flight id) :=
  read_of_pending_empty (RowStore.idle_ofRows ledger.rows 0).pending

/-- An error that is raised before the transaction. -/
theorem Agrees.of_invalid {request : Request} {generated : Uuid} {ledger : Ledger}
    {redis : Redis} {post : Ledger → Redis → Prop}
    (h : ∃ error, ∀ cached redis, runAlone generated (handle ids cached request) ledger.rest
      redis = some (.error error, ledger.rest, redis)) (hpost : post ledger redis) :
    Agrees ids request generated ledger redis post := by
  obtain ⟨error, herror⟩ := h
  refine .answered (.error error) ledger redis ?_ (fun redis₀ => ?_) hpost
  · rw [Request.run, herror true redis]
    rfl
  · rw [Request.run, herror false redis₀]
    rfl

/-- A method that changes flights agrees with itself if the payloads that are
    left fit the changed rows. -/
theorem Changing.agrees {request : Request} {generated : Uuid} {ledger : Ledger} {redis : Redis}
    {post : Ledger → Redis → Prop} (h : Changing ids ledger request generated)
    (hsame : post ledger redis)
    (hdone : ∀ id text row change key written ledger',
      changed ids ledger.rows request = some (id, text) →
      ledger.rows.lookup (.flight id) = some row →
      ledger'.rows = (ledger.rows.insert (.flight id) (changeSeats change row)).insert
        (.reservation key) written →
      Tables ledger'.rows →
        post ledger' (invalidated ids redis text id (some (changeSeats change row)))) :
    Agrees ids request generated ledger redis post := by
  cases h with
  | blocked h => exact .blocked (h true redis) fun redis₀ => h false redis₀
  | refused error h =>
      exact .answered _ ledger redis (h true redis) (fun redis₀ => h false redis₀) hsame
  | done id text row change key written answer ledger' hchanged hrow hrows htables h =>
      exact .answered _ ledger' _ (h true redis) (fun redis₀ => h false redis₀)
        (hdone id text row change key written ledger' hchanged hrow hrows htables)

/-! ## GetFlight -/

/-- Every payload of a flight has been asked for and shows its row. -/
def FlightsFresh (ids : UuidText) (asked : List Request) (rows : Rows) (redis : Redis) : Prop :=
  ∀ text payload, redis.payload (flightKey text) = some payload →
    .getFlight text ∈ asked ∧ ∃ id row, ids.parse text = some id ∧
      payload = .flight ⟨id, row⟩ ∧ rows.lookup (.flight id) = some row

/-- A change of a flight deletes the payload of every text under which the
    flight has been asked for. -/
def deletesPayloads (ids : UuidText) (asked : List Request) (site : Site) (request : Request) :
    Bool :=
  match changed ids site.ledger.rows request with
  | none => true
  | some (id, text) => asked.all fun
      | .getFlight earlier => decide (ids.parse earlier ≠ some id) ||
          (site.redis.payload (flightKey earlier)).isNone || decide (earlier = text)
      | _ => true

def isSearch : Request → Bool
  | .searchFlights _ => true
  | _ => false

theorem FlightsFresh.mono {asked asked' : List Request} {rows : Rows} {redis redis' : Redis}
    (h : FlightsFresh ids asked rows redis) (hasked : ∀ request ∈ asked, request ∈ asked')
    (hpayload : ∀ k payload, redis'.payload k = some payload → redis.payload k = some payload) :
    FlightsFresh ids asked' rows redis' := by
  intro text payload hredis
  obtain ⟨hmem, hshown⟩ := h text payload (hpayload _ _ hredis)
  exact ⟨hasked _ hmem, hshown⟩

/-- What the reads of a sequential run keep. -/
structure FlightsKept (ids : UuidText) (asked : List Request) (ledger : Ledger)
    (redis : Redis) : Prop where
  tables : Tables ledger.rows
  fresh : FlightsFresh ids asked ledger.rows redis

theorem FlightsKept.asked {asked : List Request} {ledger : Ledger} {redis : Redis}
    (h : FlightsKept ids asked ledger redis) (request : Request) :
    FlightsKept ids (request :: asked) ledger redis :=
  ⟨h.tables, h.fresh.mono (fun _ => List.mem_cons_of_mem _) fun _ _ hredis => hredis⟩

theorem getFlight_agrees {asked : List Request} {ledger : Ledger} {redis : Redis}
    (h : FlightsKept ids asked ledger redis) (text : String) (generated : Uuid) :
    Agrees ids (.getFlight text) generated ledger redis
      (FlightsKept ids (.getFlight text :: asked)) := by
  have hkept := h.asked (.getFlight text)
  by_cases hrejected : rejected ids text = true
  · exact .of_invalid (run_getFlight_rejected hrejected) hkept
  simp only [rejected, Bool.or_eq_true, beq_iff_eq, Option.isNone_iff_eq_none, not_or] at hrejected
  obtain ⟨htext, hparse⟩ := hrejected
  obtain ⟨id, hparse⟩ := Option.ne_none_iff_exists'.mp hparse
  have hplain : ∀ redis₀, (Request.getFlight text).run ids false generated ⟨ledger, redis₀⟩ =
      some (match (ledger.rows.lookup (.flight id) : Option Flight) with
        | none => .error (Server.getError .notFound)
        | some row => .ok (.flight (toProtoFlight ids ⟨id, row⟩)), ⟨ledger, redis₀⟩) := by
    intro redis₀
    rw [Request.run, run_getFlight htext hparse]
    simp only [Bool.false_eq_true, if_false, read_rest]
    cases (ledger.rows.lookup (.flight id) : Option Flight) with
    | none => rfl
    | some row => rfl
  cases hhit : hitFlight redis (flightKey text) with
  | some f =>
      obtain ⟨_, id', row, hparse', hshown, hrow⟩ := h.fresh text _ (payload_of_hitFlight hhit)
      rw [hparse, Option.some.injEq] at hparse'
      subst hparse'
      obtain rfl := Payload.flight.inj hshown
      refine .answered (.ok (.flight (toProtoFlight ids ⟨id, row⟩))) ledger redis ?_
        (fun redis₀ => by rw [hplain, hrow]) hkept
      rw [Request.run, run_getFlight htext hparse]
      simp only [if_true, hhit]
      rfl
  | none =>
      cases hrow : (ledger.rows.lookup (.flight id) : Option Flight) with
      | none =>
          refine .answered (.error (Server.getError .notFound)) ledger redis ?_
            (fun redis₀ => by rw [hplain, hrow]) hkept
          rw [Request.run, run_getFlight htext hparse]
          simp only [if_true, hhit, read_rest, hrow]
          rfl
      | some row =>
          refine .answered (.ok (.flight (toProtoFlight ids ⟨id, row⟩))) ledger
            (redis.setIfNewer (flightKey text) row.version (.flight ⟨id, row⟩)) ?_
            (fun redis₀ => by rw [hplain, hrow]) ⟨h.tables, ?_⟩
          · rw [Request.run, run_getFlight htext hparse]
            simp only [if_true, hhit, read_rest, hrow]
            rfl
          · intro text' payload hredis
            rcases Cache.payload_setIfNewer hredis with hold | ⟨_, hkey, rfl⟩
            · exact hkept.fresh text' payload hold
            · obtain rfl := CacheKey.flight.inj hkey
              exact ⟨List.mem_cons_self, id, row, hparse, rfl, hrow⟩

/-- A change keeps the payloads of the other flights right. -/
theorem FlightsFresh.changed {asked : List Request} {ledger ledger' : Ledger} {redis : Redis}
    {request : Request} {id key : Uuid} {text : String} {row : Flight} {change : Int}
    {written : Reservation} (h : FlightsFresh ids asked ledger.rows redis)
    (hdeletes : deletesPayloads ids asked ⟨ledger, redis⟩ request = true)
    (hchanged : changed ids ledger.rows request = some (id, text))
    (hrows : ledger'.rows = (ledger.rows.insert (.flight id) (changeSeats change row)).insert
      (.reservation key) written) :
    FlightsFresh ids asked ledger'.rows
      (invalidated ids redis text id (some (changeSeats change row))) := by
  intro text' payload hredis
  obtain ⟨hold, hkey, _, _⟩ := payload_invalidated hredis
  obtain ⟨hasked, id', row', hparse, rfl, hrow'⟩ := h text' payload hold
  refine ⟨hasked, id', row', hparse, rfl, ?_⟩
  have hid : id' ≠ id := by
    rintro rfl
    simp only [deletesPayloads, hchanged, List.all_eq_true] at hdeletes
    have hthis := hdeletes _ hasked
    simp only [hparse, hold, ne_eq, not_true_eq_false, decide_false, Option.isNone_some,
      Bool.or_self, Bool.false_or, decide_eq_true_eq] at hthis
    exact hkey (congrArg flightKey hthis)
  rw [hrows, lookup_flight_commit, if_neg hid, hrow']

/-- Every answer of a sequential run of GetFlight, ReserveSeats and
    ReleaseReservation is the one that the server without a cache gives, if
    every change of a flight finds no payload of it under another text than the
    one it deletes. -/
theorem getFlight_answers (ids : UuidText) {rows₀ : Rows} (htables : Tables rows₀)
    (turns : List Turn)
    (hkinds : ∀ turn ∈ turns, ∀ request, turn.request? = some request →
      (!isSearch request) = true)
    (hdeletes : passesTurns ids (deletesPayloads ids) [] turns (Site.ofRows rows₀) = true) :
    answers ids true turns (Site.ofRows rows₀) = answers ids false turns (Site.ofRows rows₀) := by
  have hstart : FlightsKept ids [] ⟨rows₀, []⟩ .empty :=
    ⟨htables, fun text payload hredis => by cases hredis⟩
  refine answers_agree (P := FlightsKept ids) ?_ ?_ ?_ hstart hkinds hdeletes .empty
  · intro asked ledger redis request generated h hkind hcheck
    have hdone : ∀ id text row change key written ledger',
        changed ids ledger.rows request = some (id, text) →
        ledger.rows.lookup (.flight id) = some row →
        ledger'.rows = (ledger.rows.insert (.flight id) (changeSeats change row)).insert
          (.reservation key) written →
        Tables ledger'.rows →
        FlightsKept ids (request :: asked) ledger'
          (invalidated ids redis text id (some (changeSeats change row))) := by
      intro id text row change key written ledger' hchanged _ hrows htables
      have hfresh := h.fresh.changed hcheck hchanged hrows
      exact ⟨htables, hfresh.mono (fun _ => List.mem_cons_of_mem _)
        fun _ _ hredis => hredis⟩
    cases request with
    | searchFlights req => cases hkind
    | getFlight text => exact getFlight_agrees h text generated
    | reserveSeats flightId bookingId seatCount =>
        exact (changing_reserveSeats h.tables flightId bookingId seatCount).agrees
          (h.asked _) hdone
    | releaseReservation bookingId =>
        exact (changing_releaseReservation h.tables bookingId).agrees (h.asked _) hdone
  · intro asked ledger redis key h
    exact ⟨h.tables, h.fresh.mono (fun _ hmem => hmem) fun _ _ hredis =>
      (Cache.payload_delete hredis).2⟩
  · intro asked ledger redis key h
    exact ⟨h.tables, h.fresh.mono (fun _ hmem => hmem) fun _ _ hredis => hredis⟩

/-- Reads, a reservation and its release, with the text that the database
    gives out. -/
def sampleTurns : List Turn :=
  [.request (.getFlight (formatUuid 1)) 0,
    .request (.reserveSeats (formatUuid 1) (formatUuid 7) 3) 20,
    .request (.getFlight (formatUuid 1)) 0,
    .request (.releaseReservation (formatUuid 7)) 0, .request (.getFlight (formatUuid 1)) 0]

theorem getFlight_answers_sample :
    (answers uuidText true sampleTurns (Site.ofRows sampleRows)).isSome ∧
      answers uuidText true sampleTurns (Site.ofRows sampleRows) =
        answers uuidText false sampleTurns (Site.ofRows sampleRows) :=
  ⟨by decide +kernel, getFlight_answers uuidText sampleRows_schema.toTables sampleTurns
    (by simp [sampleTurns, Turn.request?, isSearch]) (by decide +kernel)⟩

/-- The flight is read under 32 digits and reserved under the text with dashes. -/
def staleTurns : List Turn :=
  [.request (.getFlight "00000000000000000000000000000001") 0,
    .request (.reserveSeats (formatUuid 1) (formatUuid 7) 3) 20,
    .request (.getFlight "00000000000000000000000000000001") 0]

theorem getFlight_stale :
    uuidText.parse "00000000000000000000000000000001" = some 1 ∧
      answers uuidText true staleTurns (Site.ofRows sampleRows) ≠
        answers uuidText false staleTurns (Site.ofRows sampleRows) := by
  decide +kernel

/-! ## SearchFlights -/

/-- The flights of a search are the committed rows that it selects. -/
theorem mem_searchRows {rows : Rows} {origin destination : String} {date : Option Int}
    {f : FlightRow} : f ∈ searchRows rows origin destination date ↔
      rows.lookup (.flight f.id) = some f.row ∧ selects origin destination date f.row = true := by
  rw [searchRows, List.mem_insertionSort, List.mem_filterMap]
  constructor
  · rintro ⟨⟨k, row⟩, hmem, hf⟩
    cases k with
    | reservation id => cases hf
    | flight id =>
        have hlookup := AList.mem_lookup_iff.mpr hmem
        simp only at hf
        split at hf
        · rename_i hselects
          obtain rfl := Option.some.inj hf
          exact ⟨hlookup, hselects⟩
        · cases hf
  · rintro ⟨hlookup, hselects⟩
    exact ⟨⟨.flight f.id, f.row⟩, AList.mem_lookup_iff.mp hlookup, if_pos hselects⟩

def SearchFlightsRequest.given (req : SearchFlightsRequest) : Bool :=
  !(req.origin == "" || req.destination == "")

/-- What the database answers to a search. -/
def SearchFlightsRequest.found (req : SearchFlightsRequest) (rows : Rows) : List FlightRow :=
  searchRows rows req.origin req.destination req.date

def SearchFlightsRequest.lists (req : SearchFlightsRequest) (f : Flight) : Bool :=
  selects req.origin req.destination req.date f

/-- Two searches with the same query. -/
def SearchFlightsRequest.same (req req' : SearchFlightsRequest) : Bool :=
  decide (bpchar req.origin = bpchar req'.origin) &&
    decide (bpchar req.destination = bpchar req'.destination) && decide (req.date = req'.date)

/-- The route is written as in the row, and a date is the one of the departure. -/
def SearchFlightsRequest.fits (req : SearchFlightsRequest) (f : Flight) : Bool :=
  decide (req.origin = f.origin) && decide (req.destination = f.destination) &&
    req.date.all fun date => decide (date = utcDate f.departureTime)

/-- Every payload of a search is what one of the searches made before finds. -/
def SearchesFresh (asked : List Request) (rows : Rows) (redis : Redis) : Prop :=
  ∀ key payload, redis.payload (.search key) = some payload →
    ∃ req : SearchFlightsRequest, .searchFlights req ∈ asked ∧ req.given = true ∧
      req.key = .search key ∧ payload = .flights (req.found rows)

/-- A search finds no payload of another search under its key, and a change of
    a flight finds no payload that lists the flight of a search that does not
    fit its row. Of searches that share a key the check does not tell whose
    payload is there, so that it also refuses where that of the other one has
    been deleted and stored anew. -/
def deletesLists (ids : UuidText) (asked : List Request) (site : Site) (request : Request) :
    Bool :=
  match request with
  | .searchFlights req => !req.given || asked.all fun
      | .searchFlights earlier => !earlier.given || decide (earlier.key ≠ req.key) ||
          (site.redis.payload req.key).isNone || earlier.same req
      | _ => true
  | request =>
      match changed ids site.ledger.rows request with
      | none => true
      | some (id, _) =>
          match (site.ledger.rows.lookup (.flight id) : Option Flight) with
          | none => true
          | some row => asked.all fun
              | .searchFlights earlier => !earlier.given || !earlier.lists row ||
                  (site.redis.payload earlier.key).isNone || earlier.fits row
              | _ => true

def isGet : Request → Bool
  | .getFlight _ => true
  | _ => false

theorem found_same {req req' : SearchFlightsRequest} (h : req.same req' = true) (rows : Rows) :
    req.found rows = req'.found rows := by
  simp only [SearchFlightsRequest.same, Bool.and_eq_true, decide_eq_true_eq] at h
  obtain ⟨⟨horigin, hdestination⟩, hdate⟩ := h
  have hselects : selects req.origin req.destination req.date =
      selects req'.origin req'.destination req'.date := by
    funext f
    simp only [selects, horigin, hdestination, hdate]
  rw [SearchFlightsRequest.found, SearchFlightsRequest.found, searchRows, searchRows, hselects]

/-- A search does not see the change of a flight that it does not list. -/
theorem found_changed {req : SearchFlightsRequest} {rows rows' : Rows} {id key : Uuid}
    {row : Flight} {change : Int} {written : Reservation} (hlists : req.lists row = false)
    (hrow : rows.lookup (.flight id) = some row)
    (hrows : rows' = (rows.insert (.flight id) (changeSeats change row)).insert
      (.reservation key) written) :
    req.found rows' = req.found rows := by
  have hnew : selects req.origin req.destination req.date (changeSeats change row) = false :=
    hlists
  simp only [SearchFlightsRequest.found, searchRows]
  rw [hrows, AList.filterMap_insert rfl fun _ _ => rfl, AList.filterMap_insert]
  · simp only [hnew, Bool.false_eq_true, if_false]
  · intro old hold
    rw [hrow, Option.some.injEq] at hold
    subst hold
    simp only [show selects req.origin req.destination req.date row = false from hlists,
      Bool.false_eq_true, if_false]

/-- A payload of a search that fits the row does not survive the change. -/
theorem key_of_fits {req : SearchFlightsRequest} {row : Flight} (h : req.fits row = true) :
    req.key = searchKey row.origin row.destination (formatDate (utcDate row.departureTime)) ∨
      req.key = searchKey row.origin row.destination "any" := by
  simp only [SearchFlightsRequest.fits, Bool.and_eq_true, decide_eq_true_eq] at h
  obtain ⟨⟨horigin, hdestination⟩, hdate⟩ := h
  unfold SearchFlightsRequest.key
  rw [horigin, hdestination]
  cases hreq : req.date with
  | none => exact .inr rfl
  | some date =>
      rw [hreq, Option.all_some, decide_eq_true_eq] at hdate
      subst hdate
      exact .inl rfl

theorem SearchesFresh.mono {asked asked' : List Request} {rows : Rows} {redis redis' : Redis}
    (h : SearchesFresh asked rows redis) (hasked : ∀ request ∈ asked, request ∈ asked')
    (hpayload : ∀ k payload, redis'.payload k = some payload → redis.payload k = some payload) :
    SearchesFresh asked' rows redis' := by
  intro key payload hredis
  obtain ⟨req, hmem, hfound⟩ := h key payload (hpayload _ _ hredis)
  exact ⟨req, hasked _ hmem, hfound⟩

/-- What the reads and changes of a sequential run keep. -/
structure SearchesKept (asked : List Request) (ledger : Ledger) (redis : Redis) : Prop where
  tables : Tables ledger.rows
  fresh : SearchesFresh asked ledger.rows redis

theorem SearchesKept.asked {asked : List Request} {ledger : Ledger}
    {redis : Redis} (h : SearchesKept asked ledger redis) (request : Request) :
    SearchesKept (request :: asked) ledger redis :=
  ⟨h.tables, h.fresh.mono (fun _ => List.mem_cons_of_mem _) fun _ _ hredis => hredis⟩

theorem searchFlights_agrees {asked : List Request} {ledger : Ledger}
    {redis : Redis} (h : SearchesKept asked ledger redis) (req : SearchFlightsRequest)
    (hdeletes : deletesLists ids asked ⟨ledger, redis⟩ (.searchFlights req) = true)
    (generated : Uuid) :
    Agrees ids (.searchFlights req) generated ledger redis
      (SearchesKept (.searchFlights req :: asked)) := by
  have hkept := h.asked (.searchFlights req)
  cases hgiven : (req.origin == "" || req.destination == "") with
  | true => exact .of_invalid (run_searchFlights_rejected hgiven) hkept
  | false =>
      have hplain : ∀ redis₀,
          (Request.searchFlights req).run ids false generated ⟨ledger, redis₀⟩ =
            some (.ok (.flights ((req.found ledger.rows).map (toProtoFlight ids))),
              ⟨ledger, redis₀⟩) := by
        intro redis₀
        rw [Request.run, run_searchFlights hgiven]
        rfl
      have hreq : req.given = true := by rw [SearchFlightsRequest.given, hgiven, Bool.not_false]
      cases hhit : hitSearch redis req.key with
      | some fs =>
          have hpayload := payload_of_hitSearch hhit
          obtain ⟨earlier, hmem, hearlier, hkey, hshown⟩ := h.fresh _ _ hpayload
          have hfs := Payload.flights.inj hshown
          have hsame : earlier.same req = true := by
            simp only [deletesLists, hreq, Bool.not_true, Bool.false_or,
              List.all_eq_true] at hdeletes
            have hthis := hdeletes _ hmem
            have hkeys : earlier.key = req.key := hkey
            simpa [hearlier, hkeys, hpayload] using hthis
          refine .answered _ ledger redis ?_ hplain hkept
          rw [Request.run, run_searchFlights hgiven]
          simp only [if_true, hhit, hfs, found_same hsame]
          rfl
      | none =>
          refine .answered _ ledger (redis.setIfNewer req.key (maxVersion (req.found ledger.rows))
            (.flights (req.found ledger.rows))) ?_ hplain ⟨h.tables, ?_⟩
          · rw [Request.run, run_searchFlights hgiven]
            simp only [if_true, hhit]
            rfl
          · intro key payload hredis
            rcases Cache.payload_setIfNewer hredis with hold | ⟨_, hkey, rfl⟩
            · exact hkept.fresh key payload hold
            · exact ⟨req, List.mem_cons_self, hreq, hkey.symm, rfl⟩

/-- A change keeps the payloads right that do not list the flight. -/
theorem SearchesFresh.changed {asked : List Request} {ledger ledger' : Ledger} {redis : Redis}
    {request : Request} {id key : Uuid} {text : String} {row : Flight} {change : Int}
    {written : Reservation} (h : SearchesFresh asked ledger.rows redis)
    (hkind : ∀ req, request ≠ .searchFlights req)
    (hdeletes : deletesLists ids asked ⟨ledger, redis⟩ request = true)
    (hchanged : changed ids ledger.rows request = some (id, text))
    (hrow : ledger.rows.lookup (.flight id) = some row)
    (hrows : ledger'.rows = (ledger.rows.insert (.flight id) (changeSeats change row)).insert
      (.reservation key) written) :
    SearchesFresh asked ledger'.rows
      (invalidated ids redis text id (some (changeSeats change row))) := by
  intro name payload hredis
  obtain ⟨hold, _, hday, hany⟩ := payload_invalidated hredis
  obtain ⟨req, hasked, hgiven, hkey, rfl⟩ := h name payload hold
  refine ⟨req, hasked, hgiven, hkey, ?_⟩
  have hlists : req.lists row = false := by
    by_contra hlists
    have hall : (asked.all fun
        | .searchFlights earlier => !earlier.given || !earlier.lists row ||
            (redis.payload earlier.key).isNone || earlier.fits row
        | _ => true) = true := by
      cases request with
      | searchFlights req => exact absurd rfl (hkind req)
      | _ =>
          simp only [deletesLists, hchanged, hrow] at hdeletes
          exact hdeletes
    rw [List.all_eq_true] at hall
    have hthis := hall _ hasked
    rw [← hkey] at hold hday hany
    have hfits : req.fits row = true := by
      simpa [hgiven, hlists, hold] using hthis
    rcases key_of_fits hfits with hkey | hkey
    · exact hday hkey
    · exact hany hkey
  rw [found_changed hlists hrow hrows]

/-- Every answer of a sequential run of SearchFlights, ReserveSeats and
    ReleaseReservation is the one that the server without a cache gives, if no
    two searches with different queries meet under one key and every change of
    a flight finds it listed only for searches that write its route as the row
    does and name no date but the UTC date of its departure. -/
theorem searchFlights_answers (ids : UuidText) {rows₀ : Rows} (htables : Tables rows₀)
    (turns : List Turn)
    (hkinds : ∀ turn ∈ turns, ∀ request, turn.request? = some request →
      (!isGet request) = true)
    (hdeletes : passesTurns ids (deletesLists ids) [] turns (Site.ofRows rows₀) = true) :
    answers ids true turns (Site.ofRows rows₀) = answers ids false turns (Site.ofRows rows₀) := by
  have hstart : SearchesKept [] ⟨rows₀, []⟩ .empty :=
    ⟨htables, fun key payload hredis => by cases hredis⟩
  refine answers_agree (P := SearchesKept) ?_ ?_ ?_ hstart hkinds hdeletes .empty
  · intro asked ledger redis request generated h hkind hcheck
    have hdone : (∀ req, request ≠ .searchFlights req) →
        ∀ id text row change key written ledger',
        changed ids ledger.rows request = some (id, text) →
        ledger.rows.lookup (.flight id) = some row →
        ledger'.rows = (ledger.rows.insert (.flight id) (changeSeats change row)).insert
          (.reservation key) written →
        Tables ledger'.rows →
        SearchesKept (request :: asked) ledger'
          (invalidated ids redis text id (some (changeSeats change row))) := by
      intro hsearch id text row change key written ledger' hchanged hrow hrows htables
      have hfresh := h.fresh.changed hsearch hcheck hchanged hrow hrows
      exact ⟨htables, hfresh.mono (fun _ => List.mem_cons_of_mem _)
        fun _ _ hredis => hredis⟩
    cases request with
    | searchFlights req => exact searchFlights_agrees h req hcheck generated
    | getFlight text => cases hkind
    | reserveSeats flightId bookingId seatCount =>
        exact (changing_reserveSeats h.tables flightId bookingId seatCount).agrees
          (h.asked _) (hdone fun req hreq => by cases hreq)
    | releaseReservation bookingId =>
        exact (changing_releaseReservation h.tables bookingId).agrees (h.asked _)
          (hdone fun req hreq => by cases hreq)
  · intro asked ledger redis key h
    exact ⟨h.tables, h.fresh.mono (fun _ hmem => hmem) fun _ _ hredis =>
      (Cache.payload_delete hredis).2⟩
  · intro asked ledger redis key h
    exact ⟨h.tables, h.fresh.mono (fun _ hmem => hmem) fun _ _ hredis => hredis⟩

/-- Searches with the date of departure and with none, and a reservation. -/
def searchTurns : List Turn :=
  [.request (.searchFlights ⟨"SVO", "LED", some 1775034000⟩) 0,
    .request (.searchFlights ⟨"SVO", "LED", none⟩) 0,
    .request (.reserveSeats (formatUuid 1) (formatUuid 7) 3) 20,
    .request (.searchFlights ⟨"SVO", "LED", some 1775034000⟩) 0,
    .request (.searchFlights ⟨"SVO", "LED", none⟩) 0]

theorem searchFlights_answers_sample :
    (answers uuidText true searchTurns (Site.ofRows sampleRows)).isSome ∧
      answers uuidText true searchTurns (Site.ofRows sampleRows) =
        answers uuidText false searchTurns (Site.ofRows sampleRows) :=
  ⟨by decide +kernel, searchFlights_answers uuidText sampleRows_schema.toTables searchTurns
    (by simp [searchTurns, Turn.request?, isGet]) (by decide +kernel)⟩

/-- A flight whose `flight_date` is the day after the UTC date of its departure. -/
def lateRows : Rows := (∅ : Rows).insert (.flight 1) { sampleFlight with flightDate := 20545 }

def staleSearchTurns : List Turn :=
  [.request (.searchFlights ⟨"SVO", "LED", some 1775120400⟩) 0,
    .request (.reserveSeats (formatUuid 1) (formatUuid 7) 3) 20,
    .request (.searchFlights ⟨"SVO", "LED", some 1775120400⟩) 0]

theorem searchFlights_stale :
    Tables lateRows ∧ answers uuidText true staleSearchTurns (Site.ofRows lateRows) ≠
      answers uuidText false staleSearchTurns (Site.ofRows lateRows) :=
  ⟨tables_flight 1 (by decide), by decide +kernel⟩

end Runs

end SoaHomework.FlightCache
