import SoaHomework.UnreliableCache

/-!
# Answers of bounded age

Whatever becomes of the commands to Redis, its keys and its replies, the server answers
like the table as it is and was (`answers_in_time`): reservations and releases take
effect at once in the rows as they are, and no lookup shows rows that were replaced
longer ago than the time that payloads live and readers take to store them. The version
guards have no part in this; they matter to how fresh an answer is while Redis works.
-/

namespace SoaHomework.FlightCache.Unreliable

open StatementProgram FlightService Grpc VersionedCache

variable {ids : UuidText} {ttl patience : Int} {rows₀ : Rows} {i : Nat} {s s' : Deployment}
  {request : Request} {β : Type}

/-! ## What the cache holds -/

/-- The rows were the committed ones at the time. -/
def Deployment.Had (s : Deployment) (time : Int) (rows : Rows) : Prop :=
  time ≤ s.clock ∧ (rows = s.store.db.rows ∨ ∃ last, (rows, last) ∈ s.past ∧ time ≤ last)

theorem Deployment.Had.asOf {time bound : Int} {rows : Rows} (h : s.Had time rows)
    (hrecent : s.clock < time + bound) : ∃ moment, s.timeline.asOf bound moment = some rows := by
  rcases h.2 with rfl | ⟨last, hmem, hlast⟩
  · exact ⟨none, rfl⟩
  · obtain ⟨k, hk⟩ := List.mem_iff_getElem?.mp hmem
    refine ⟨some k, ?_⟩
    have hnow : s.clock < last + bound := by omega
    simp only [Timeline.asOf, Deployment.timeline, hk, hnow, if_true]

/-- The payload is what its key stands for in the rows. -/
inductive ReadIn (ids : UuidText) (rows : Rows) : CacheKey → Payload → Prop where
  | flight {text id} {row : Flight} (hparse : ids.parse text = some id)
      (hrow : rows.lookup (.flight id) = some row) :
      ReadIn ids rows (.flight text) (.flight ⟨id, row⟩)
  | search {key} (asked : SearchFlightsRequest) (hkey : asked.key = key) :
      ReadIn ids rows key (.flights (asked.found rows))

/-- Every payload was read, and it expires in time. -/
def Recent (ids : UuidText) (ttl patience : Int) (s : Deployment) : Prop :=
  ∀ key payload, s.redis.payload key = some payload →
    ∃ time rows, s.Had time rows ∧ s.expires key ≤ time + (ttl + patience) ∧
      ReadIn ids rows key payload

/-- What is found in the cache was read less than `ttl + patience` ago. -/
theorem Recent.get (h : Recent ids ttl patience s) {key : CacheKey} {payload : Payload}
    (hget : s.get key = some payload) :
    ∃ moment rows, s.timeline.asOf (ttl + patience) moment = some rows ∧
      ReadIn ids rows key payload := by
  rw [Deployment.get, Option.ite_none_right_eq_some] at hget
  obtain ⟨time, rows, hhad, hexpires, hread⟩ := h key payload hget.2
  obtain ⟨moment, hmoment⟩ := hhad.asOf (lt_of_lt_of_le hget.1 hexpires)
  exact ⟨moment, rows, hmoment, hread⟩

/-- What was committed at some time stays so. -/
def Later (s s' : Deployment) : Prop := ∀ time rows, s.Had time rows → s'.Had time rows

theorem Recent.kept (h : Recent ids ttl patience s) (hlater : Later s s')
    (hpayload : ∀ key payload, s'.redis.payload key = some payload →
      s.redis.payload key = some payload) (hexpires : s'.expires = s.expires) :
    Recent ids ttl patience s' := by
  intro key payload hstored
  obtain ⟨time, rows, hhad, htime, hread⟩ := h key payload (hpayload key payload hstored)
  exact ⟨time, rows, hlater time rows hhad, hexpires ▸ htime, hread⟩

/-- The payload was read by request `i`. -/
def Fetched (ids : UuidText) (i : Nat) (key : CacheKey) (payload : Payload) (s : Deployment) :
    Prop :=
  ∃ rows, s.Had (s.readAt i) rows ∧ ReadIn ids rows key payload

theorem Recent.store (h : Recent ids ttl patience s) {key : CacheKey} {payload : Payload}
    (hfetched : Fetched ids i key payload s) (htime : s.clock ≤ s.readAt i + patience)
    (version : Int) : Recent ids ttl patience (s.setIfNewer ttl key version payload) := by
  intro key' payload' hstored
  rcases Cache.payload_setIfNewer hstored with hold | ⟨hadmits, rfl, rfl⟩
  · obtain ⟨time, rows, hhad, hexpires, hread⟩ := h key' payload' hold
    by_cases hkey : s.redis.admits key version = true ∧ key' = key
    · obtain ⟨hadmits, rfl⟩ := hkey
      simp only [Deployment.setIfNewer, Cache.setIfNewer, hadmits, if_true, Function.update_self,
        Option.some.injEq] at hstored
      subst hstored
      obtain ⟨rows', hhad', hread'⟩ := hfetched
      refine ⟨_, rows', hhad', ?_, hread'⟩
      simp only [Deployment.setIfNewer, hadmits, if_true, Function.update_self]
      omega
    · refine ⟨time, rows, hhad, ?_, hread⟩
      simp only [Deployment.setIfNewer]
      split
      · rename_i hadmits
        rwa [Function.update_of_ne fun heq => hkey ⟨hadmits, heq⟩]
      · exact hexpires
  · obtain ⟨rows, hhad, hread⟩ := hfetched
    refine ⟨_, rows, hhad, ?_, hread⟩
    simp only [Deployment.setIfNewer, hadmits, if_true, Function.update_self]
    omega

/-! ## What the commands do -/

theorem Timeline.replaced_current (t : Timeline) : t.replaced t.current = t := by
  simp [Timeline.replaced]

/-- A statement of the database. -/
structure Executed (i : Nat) (s s' : Deployment) : Prop where
  redis : s'.redis = s.redis
  expires : s'.expires = s.expires
  readAt : ∀ j, i ≠ j → s'.readAt j = s.readAt j
  timeline : s'.timeline = s.timeline.replaced s'.store.db.rows

theorem exec_db {statement : Statement} {fate : Fate} {answer : Answer statement}
    (h : exec ttl i (.db statement) fate s = some (answer, s')) :
    ∃ choice, execute i statement choice s.store = some (answer, s'.store) ∧ Executed i s s' := by
  cases fate with
  | failure =>
      simp only [exec, Option.some.injEq, Prod.mk.injEq] at h
      obtain ⟨rfl, rfl⟩ := h
      exact ⟨.failure, rfl, rfl, rfl, fun _ _ => rfl, s.timeline.replaced_current.symm⟩
  | unanswered => cases h
  | proceed generated =>
      simp only [exec, Option.map_eq_some_iff, Prod.mk.injEq] at h
      obtain ⟨⟨answer', store⟩, hproceed, rfl, rfl⟩ := h
      cases statement with
      | selectFlight id =>
          refine ⟨.proceed generated, hproceed, rfl, rfl, fun j hij => ?_, rfl⟩
          exact Function.update_of_ne hij.symm _ _
      | _ => exact ⟨.proceed generated, hproceed, rfl, rfl, fun _ _ => rfl, rfl⟩

theorem later_of_replaced (h : s'.timeline = s.timeline.replaced s'.store.db.rows) :
    Later s s' := by
  have hclock : s'.clock = s.clock := congrArg Timeline.now h
  have hpast : s'.past = if s'.store.db.rows = s.store.db.rows then s.past
      else (s.store.db.rows, s.clock) :: s.past := congrArg Timeline.past h
  rintro time rows ⟨htime, hrows⟩
  refine ⟨hclock ▸ htime, ?_⟩
  rcases hrows with rfl | ⟨last, hmem, hlast⟩
  · by_cases hsame : s'.store.db.rows = s.store.db.rows
    · exact Or.inl hsame.symm
    · rw [if_neg hsame] at hpast
      exact Or.inr ⟨s.clock, hpast ▸ List.mem_cons_self, htime⟩
  · refine Or.inr ⟨last, ?_, hlast⟩
    rw [hpast]
    split
    · exact hmem
    · exact List.mem_cons_of_mem _ hmem

/-- The discipline of the server: whoever stores a payload has read it. -/
def recency (ids : UuidText) (ttl patience : Int) (rows₀ : Rows) :
    Discipline Command RpcError Response Request Deployment where
  inv s := (FlightService.discipline rows₀).inv s.store ∧ Recent ids ttl patience s
  rely _ i s s' := RowStore.Keeps bookingIndex i s.store.db s'.store.db ∧
    s'.readAt i = s.readAt i ∧ Later s s'
  guarantee _ i s s' := (∀ j, i ≠ j → RowStore.Keeps bookingIndex j s.store.db s'.store.db ∧
    s'.readAt j = s.readAt j) ∧ Later s s'
  unused i s := s.store.db.Idle i
  compatible _ _ := True
  permitted _ i command s :=
    match command with
    | .setIfNewer _ _ _ => s.clock ≤ s.readAt i + patience
    | _ => True
  known _ _ _ _ := True
  answer _ _ _ _ := True

/-- A statement that the store permits is one that the server permits. -/
theorem Executed.keeps (request : Request) (h : Executed i s s')
    (hinv : (recency ids ttl patience rows₀).inv s)
    (hinv' : (FlightService.discipline rows₀).inv s'.store)
    (hframe : ∀ j, i ≠ j → RowStore.Keeps bookingIndex j s.store.db s'.store.db) :
    (recency ids ttl patience rows₀).inv s' ∧
      (recency ids ttl patience rows₀).guarantee request i s s' := by
  have hlater := later_of_replaced h.timeline
  exact ⟨⟨hinv', hinv.2.kept hlater (fun key payload hstored => h.redis ▸ hstored) h.expires⟩,
    fun j hij => ⟨hframe j hij, h.readAt j hij⟩, hlater⟩

/-- A command that needs no knowledge. -/
def Command.harmless : Command → Prop
  | .db statement => statement ≠ .commit
  | .setIfNewer _ _ _ => False
  | _ => True

theorem exec_harmless (request : Request) {command : Command} {fate : Fate} {answer : Reply command}
    (hharmless : Command.harmless command) (hinv : (recency ids ttl patience rows₀).inv s)
    (h : exec ttl i command fate s = some (answer, s')) :
    (recency ids ttl patience rows₀).inv s' ∧
      (recency ids ttl patience rows₀).guarantee request i s s' := by
  have hsame : (recency ids ttl patience rows₀).inv s ∧
      (recency ids ttl patience rows₀).guarantee request i s s :=
    ⟨hinv, fun j _ => ⟨RowStore.Keeps.refl j _, rfl⟩, fun _ _ h => h⟩
  have hredis : ∀ redis : Redis, (∀ key payload, redis.payload key = some payload →
      s.redis.payload key = some payload) →
        (recency ids ttl patience rows₀).inv { s with redis := redis } ∧
          (recency ids ttl patience rows₀).guarantee request i s { s with redis := redis } := by
    intro redis hpayload
    exact ⟨⟨hinv.1, hinv.2.kept (fun _ _ h => h) hpayload rfl⟩,
      fun j _ => ⟨RowStore.Keeps.refl j _, rfl⟩, fun _ _ h => h⟩
  have hreads : (recency ids ttl patience rows₀).inv (s.reads i) ∧
      (recency ids ttl patience rows₀).guarantee request i s (s.reads i) :=
    ⟨⟨hinv.1, hinv.2.kept (fun _ _ h => h) (fun _ _ h => h) rfl⟩,
      fun j hij => ⟨RowStore.Keeps.refl j _, Function.update_of_ne hij.symm _ _⟩, fun _ _ h => h⟩
  cases command with
  | db statement =>
      obtain ⟨choice, hexecute, hexecuted⟩ := exec_db h
      obtain ⟨hframe, hrows⟩ := execute_frame hexecute hinv.1.1
      obtain ⟨hsamerows, hjournal⟩ := hrows hharmless
      refine hexecuted.keeps request hinv ⟨hframe.consistent, ?_⟩ hframe.keeps
      rw [hsamerows, hjournal]
      exact hinv.1.2
  | searchFlights origin destination date =>
      cases fate with
      | proceed generated =>
          simp only [exec, Option.some.injEq, Prod.mk.injEq] at h
          exact h.2 ▸ hreads
      | failure =>
          simp only [exec, Option.some.injEq, Prod.mk.injEq] at h
          exact h.2 ▸ hsame
      | unanswered => cases h
  | get key =>
      have hs : s = s' := by
        cases fate <;> simp only [exec, Option.some.injEq, Prod.mk.injEq] at h <;> exact h.2
      exact hs ▸ hsame
  | del key =>
      have hs : s' = s ∨ s' = { s with redis := s.redis.delete key } := by
        cases fate <;> simp only [exec, Option.some.injEq, Prod.mk.injEq, true_and] at h <;>
          simp [← h]
      rcases hs with rfl | rfl
      · exact hsame
      · exact hredis _ fun key payload hstored => (Cache.payload_delete hstored).2
  | setIfNewer key version payload => exact hharmless.elim
  | setVersionIfNewer key version =>
      have hs : s' = s ∨ s' = { s with redis := s.redis.setVersionIfNewer key version } := by
        cases fate <;> simp only [exec, Option.some.injEq, Prod.mk.injEq, true_and] at h <;>
          simp [← h]
      rcases hs with rfl | rfl
      · exact hsame
      · refine hredis _ fun key payload hstored => ?_
        rwa [Cache.payload_setVersionIfNewer] at hstored

/-! ## The methods keep the discipline -/

theorem safe_of_harmless {ε α : Type} {program : CacheProgram ε α}
    (hp : program.Uses Command.harmless) (s : Deployment) :
    (recency ids ttl patience rows₀).Safe (service ids ttl) request i (fun _ _ => True) program
      s := by
  induction program generalizing s with
  | ret value => trivial
  | fail error => trivial
  | step command next ih =>
      refine fun s₁ hinv _ => ⟨trivial, fun _ fate answer s₂ hexec => ?_⟩
      obtain ⟨hinv₂, hguarantee⟩ := exec_harmless request hp.1 hinv hexec
      exact ⟨hinv₂, hguarantee, ih answer (hp.2 answer) s₂⟩

/-- A transaction that is safe for the store is safe for the server. -/
theorem safe_onStore {α : Type} {request₀ : FlightService.Request}
    {post : Except StoreError α → State → Prop}
    {program : Program Statement Answer StoreError α} (s : Deployment)
    (h : (FlightService.discipline rows₀).Safe FlightService.service request₀ i post program
      s.store) :
    (recency ids ttl patience rows₀).Safe (service ids ttl) request i (fun _ _ => True)
      (onStore program) s := by
  induction program generalizing s with
  | ret value => trivial
  | fail error => trivial
  | step statement next ih =>
      refine fun s₁ hinv hrely => ⟨trivial, fun _ fate answer s₂ hexec => ?_⟩
      obtain ⟨choice, hexecute, hexecuted⟩ := exec_db hexec
      obtain ⟨hinv₂, hguarantee, hrest⟩ := (h s₁.store hinv.1 hrely.1).2 trivial choice answer
        s₂.store hexecute
      obtain ⟨hkept, hkeeps⟩ := hexecuted.keeps request hinv hinv₂ hguarantee.1
      exact ⟨hkept, hkeeps, ih answer s₂ hrest⟩

theorem harmless_readFlight (id : Uuid) : (onStore (Store.getFlight id)).Uses Command.harmless := by
  refine ⟨by simp [Command.harmless], fun answer => ?_⟩
  rcases answer with error | _ | row
  · trivial
  · trivial
  · trivial

theorem harmless_invalidate (text : String) (id : Uuid) :
    (invalidate ids true text id).Uses Command.harmless := by
  refine ⟨trivial, fun _ => ?_⟩
  change Program.Uses _ ((onStore (Store.getFlight id)).attempt >>= _)
  refine Program.uses_bind (Program.uses_attempt (harmless_readFlight id)) fun outcome => ?_
  rcases outcome with error | f
  · trivial
  · exact ⟨trivial, fun _ => ⟨trivial, fun _ => ⟨trivial, fun _ => ⟨trivial, fun _ =>
      ⟨trivial, fun _ => trivial⟩⟩⟩⟩⟩

/-- A writer: its transaction, and then the cache. -/
theorem triple_writer (request₀ : FlightService.Request) {onError : StoreError → RpcError}
    {text : Reservation → String} {id : Reservation → Uuid} :
    (recency ids ttl patience rows₀).Triple (service ids ttl) request i
      (fun s => s.store.db.Idle i)
      ((onStore (FlightService.handle request₀)).attempt >>= fun outcome => match outcome with
        | .error error => .fail (onError error)
        | .ok r => do
            invalidate ids true (text r) (id r)
            return r)
      (fun _ _ => True) := by
  refine Discipline.Triple.attempt_bind (fun _ _ => True) (fun s hinv hidle => ?_) fun outcome => ?_
  · exact safe_onStore s (FlightService.sound.handler_safe request₀ i s.store hinv.1 hidle)
  · rcases outcome with error | r
    · exact fun s _ _ => trivial
    · refine fun s _ _ => safe_of_harmless (Program.uses_bind (harmless_invalidate _ _) ?_) s
      exact fun _ => trivial

section Reader

variable {post : Except RpcError β → Deployment → Prop}

theorem stable_idle : (recency ids ttl patience rows₀).Stable request i
    (fun s => s.store.db.Idle i) :=
  fun _ _ _ hrely hidle => hrely.1.idle hidle

/-- A command that needs no knowledge, and tells the request nothing. -/
theorem triple_harmless {command : Command} {next : Reply command → CacheProgram RpcError β}
    (hharmless : Command.harmless command)
    (hidle : ∀ fate answer s s', exec ttl i command fate s = some (answer, s') →
      s.store.db.Idle i → s'.store.db.Idle i)
    (hnext : ∀ answer, (recency ids ttl patience rows₀).Triple (service ids ttl) request i
      (fun s => s.store.db.Idle i) (next answer) post) :
    (recency ids ttl patience rows₀).Triple (service ids ttl) request i
      (fun s => s.store.db.Idle i) (.step command next) post := by
  refine Discipline.Triple.step (fun _ s => s.store.db.Idle i) stable_idle (fun s hinv h => ?_)
    hnext
  refine ⟨trivial, fun _ fate answer s' hexec => ?_⟩
  obtain ⟨hinv', hguarantee⟩ := exec_harmless request hharmless hinv hexec
  exact ⟨hinv', hguarantee, hidle fate answer s s' hexec h⟩

theorem triple_get {key : CacheKey} {next : Option Payload → CacheProgram RpcError β}
    (hnext : ∀ found, (recency ids ttl patience rows₀).Triple (service ids ttl) request i
      (fun s => s.store.db.Idle i) (next found) post) :
    (recency ids ttl patience rows₀).Triple (service ids ttl) request i
      (fun s => s.store.db.Idle i) (command (.get key) >>= next) post := by
  refine triple_harmless trivial (fun fate answer s s' hexec hidle => ?_) hnext
  have hs : s = s' := by
    cases fate <;> simp only [exec, Option.some.injEq, Prod.mk.injEq] at hexec <;> exact hexec.2
  exact hs ▸ hidle

theorem triple_parseId {text : String} {error : RpcError} {next : Uuid → CacheProgram RpcError β}
    (hfail : ∀ s, post (.error error) s)
    (hnext : ∀ id, ids.parse text = some id →
      (recency ids ttl patience rows₀).Triple (service ids ttl) request i
        (fun s => s.store.db.Idle i) (next id) post) :
    (recency ids ttl patience rows₀).Triple (service ids ttl) request i
      (fun s => s.store.db.Idle i) (parseId ids text error >>= next) post := by
  unfold parseId
  cases hparse : ids.parse text with
  | none => exact fun s _ _ => hfail s
  | some id => exact hnext id hparse

/-- The reading of a flight. -/
theorem triple_readFlight {text : String} {id : Uuid} (hparse : ids.parse text = some id) :
    (recency ids ttl patience rows₀).Triple (service ids ttl) request i
      (fun s => s.store.db.Idle i) (onStore (Store.getFlight id)) (fun outcome s =>
        ∀ row, outcome = .ok row → Fetched ids i (flightKey text) (.flight ⟨id, row⟩) s) := by
  change Discipline.Triple _ _ _ _ _ (.step (.db (.selectFlight id)) fun answer =>
    onStore (returnError answer >>= _)) _
  refine Discipline.Triple.step (fun answer s => ∀ row, answer = .ok (some row) →
    Fetched ids i (flightKey text) (.flight ⟨id, row⟩) s) stable_idle (fun s hinv hidle => ?_) ?_
  · refine ⟨trivial, fun _ fate answer s' hexec => ?_⟩
    obtain ⟨hinv', hguarantee⟩ :=
      exec_harmless request (by simp [Command.harmless]) hinv hexec
    refine ⟨hinv', hguarantee, fun row hanswer => ?_⟩
    subst hanswer
    cases fate with
    | failure => cases hexec
    | unanswered => cases hexec
    | proceed generated =>
        simp only [service, exec, proceed, Option.map_some, Option.some.injEq, Prod.mk.injEq,
          Except.ok.injEq] at hexec
        obtain ⟨hrow, rfl⟩ := hexec
        rw [RowStore.read, RowStore.view, hidle.pending, AList.empty_union] at hrow
        refine ⟨s.store.db.rows, ⟨?_, Or.inl rfl⟩, .flight hparse hrow⟩
        exact (Function.update_self i s.clock s.readAt).le
  · rintro (error | _ | row)
    · exact fun s _ _ row h => by cases h
    · exact fun s _ _ row h => by cases h
    · exact fun s _ hfetched row' h => by
        cases h
        exact hfetched row rfl

/-- What was read is stored in time. -/
theorem triple_fill {key : CacheKey} {version : Int} {payload : Payload}
    {next : Unit → CacheProgram RpcError β}
    (hnext : ∀ s, (recency ids ttl patience rows₀).Safe (service ids ttl) request i post (next ())
      s) :
    (recency ids ttl patience rows₀).Triple (service ids ttl) request i
      (Fetched ids i key payload) (command (.setIfNewer key version payload) >>= next) post := by
  refine Discipline.Triple.step (fun _ _ => True) ?_ (fun s hinv hfetched => ?_)
    fun _ s _ _ => hnext s
  · rintro s s' _ ⟨_, hread, hlater⟩ ⟨rows, hhad, hin⟩
    exact ⟨rows, hread ▸ hlater _ _ hhad, hin⟩
  · refine ⟨trivial, fun hpermitted fate answer s' hexec => ?_⟩
    have hs : s' = s ∨ s' = s.setIfNewer ttl key version payload := by
      simp only [service] at hexec
      cases fate <;> simp only [exec, Option.some.injEq, Prod.mk.injEq, true_and] at hexec <;>
        simp [← hexec]
    rcases hs with rfl | rfl
    · exact ⟨hinv, ⟨fun j _ => ⟨RowStore.Keeps.refl j _, rfl⟩, fun _ _ h => h⟩, trivial⟩
    · exact ⟨⟨hinv.1, hinv.2.store hfetched hpermitted version⟩,
        ⟨fun j _ => ⟨RowStore.Keeps.refl j _, rfl⟩, fun _ _ h => h⟩, trivial⟩

theorem triple_getFlight (flightId : String) :
    (recency ids ttl patience rows₀).Triple (service ids ttl) request i
      (fun s => s.store.db.Idle i) (getFlight ids true flightId) (fun _ _ => True) := by
  refine Discipline.Triple.raiseIf (fun _ _ _ _ => trivial) fun _ => ?_
  refine triple_parseId (fun _ => trivial) fun id hparse => ?_
  refine Discipline.Triple.bind (fun _ s => s.store.db.Idle i) ?_ (fun found => ?_)
    fun _ _ _ _ => trivial
  · simp only [getCached, if_true]
    refine triple_get fun payload => ?_
    rcases payload with _ | ⟨f⟩ | ⟨fs⟩ <;> exact fun s _ h => h
  · rcases found with _ | f
    · refine Discipline.Triple.attempt_bind _ (triple_readFlight hparse) fun outcome => ?_
      rcases outcome with error | row
      · exact fun _ _ _ => trivial
      · refine Discipline.Triple.weaken _ ?_ fun s _ h => h row rfl
        exact triple_fill fun _ => trivial
    · exact fun _ _ _ => trivial

theorem triple_searchFlights (req : SearchFlightsRequest) :
    (recency ids ttl patience rows₀).Triple (service ids ttl) request i
      (fun s => s.store.db.Idle i) (searchFlights ids true req) (fun _ _ => True) := by
  refine Discipline.Triple.raiseIf (fun _ _ _ _ => trivial) fun _ => ?_
  refine Discipline.Triple.bind (fun _ s => s.store.db.Idle i) ?_ (fun found => ?_)
    fun _ _ _ _ => trivial
  · simp only [getSearch, if_true]
    refine triple_get fun payload => ?_
    rcases payload with _ | ⟨f⟩ | ⟨fs⟩ <;> exact fun s _ h => h
  · rcases found with _ | fs
    · refine Discipline.Triple.step (fun answer s => ∀ fs, answer = .ok fs →
        Fetched ids i req.key (.flights fs) s) stable_idle (fun s hinv _ => ?_) ?_
      · refine ⟨trivial, fun _ fate answer s' hexec => ?_⟩
        obtain ⟨hinv', hguarantee⟩ := exec_harmless request
          (show Command.harmless (.searchFlights _ _ _) from trivial) hinv hexec
        refine ⟨hinv', hguarantee, fun fs hanswer => ?_⟩
        subst hanswer
        cases fate with
        | failure => cases hexec
        | unanswered => cases hexec
        | proceed generated =>
            simp only [service, exec, Option.some.injEq, Prod.mk.injEq, Except.ok.injEq] at hexec
            obtain ⟨rfl, rfl⟩ := hexec
            refine ⟨s.store.db.rows, ⟨?_, Or.inl rfl⟩, .search req rfl⟩
            exact (Function.update_self i s.clock s.readAt).le
      · rintro (error | fs)
        · exact fun _ _ _ => trivial
        · refine Discipline.Triple.weaken _ ?_ fun s _ h => h fs rfl
          exact triple_fill fun _ => trivial
    · exact fun _ _ _ => trivial

end Reader

theorem later_clock {time : Nat} : Later s { s with clock := s.clock + time } :=
  fun _ _ h => ⟨le_trans h.1 (Int.le_add_of_nonneg_right (Int.natCast_nonneg time)), h.2⟩

/-- What happens outside the requests. -/
theorem outside_keeps {change : Outside} (hinv : (recency ids ttl patience rows₀).inv s)
    (h : outside change s = some s') :
    (recency ids ttl patience rows₀).inv s' ∧ (∀ j, RowStore.Keeps bookingIndex j s.store.db
      s'.store.db) ∧ s'.readAt = s.readAt ∧ Later s s' := by
  cases change with
  | elapse time =>
      simp only [outside, Option.some.injEq] at h
      subst h
      exact ⟨⟨hinv.1, hinv.2.kept later_clock (fun _ _ h => h) rfl⟩,
        fun j => RowStore.Keeps.refl j _, rfl, later_clock⟩
  | forget key =>
      simp only [outside, Option.some.injEq] at h
      subst h
      exact ⟨⟨hinv.1, hinv.2.kept (fun _ _ h => h)
        (fun _ _ hstored => (Cache.payload_delete hstored).2) rfl⟩,
        fun j => RowStore.Keeps.refl j _, rfl, fun _ _ h => h⟩
  | forgetVersion key =>
      simp only [outside, Option.some.injEq] at h
      subst h
      exact ⟨⟨hinv.1, hinv.2.kept (fun _ _ h => h) (fun _ _ hstored => hstored) rfl⟩,
        fun j => RowStore.Keeps.refl j _, rfl, fun _ _ h => h⟩
  | changeStatus change =>
      simp only [outside, Option.map_eq_some_iff] at h
      obtain ⟨store, hchange, rfl⟩ := h
      have hlater : Later s (s.replaced store) := later_of_replaced rfl
      exact ⟨⟨FlightService.sound.outside_inv change _ _ hchange hinv.1,
        hinv.2.kept hlater (fun _ _ h => h) rfl⟩,
        (changeStatus_frame hchange hinv.1.1).2.1, rfl, hlater⟩

theorem sound : (recency ids ttl patience rows₀).Sound (service ids ttl) where
  rely_refl _ i s := ⟨RowStore.Keeps.refl i _, rfl, fun _ _ h => h⟩
  rely_trans _ _ _ _ _ h h' :=
    ⟨h.1.trans h'.1, h'.2.1.trans h.2.1,
      fun time rows hhad => h'.2.2 time rows (h.2.2 time rows hhad)⟩
  guarantee_rely _ _ _ j _ _ hij _ _ h := ⟨(h.1 j hij).1, (h.1 j hij).2, h.2⟩
  guarantee_unused _ _ j _ _ hij h hidle := (h.1 j hij).1.idle hidle
  guarantee_answer _ _ _ _ _ _ _ _ _ _ _ := trivial
  close_inv i s h := ⟨FlightService.sound.close_inv i s.store h.1,
    h.2.kept (fun _ _ h => h) (fun _ _ h => h) rfl⟩
  close_guarantee _ i s _ := ⟨fun j hij => ⟨RowStore.rollback_keeps hij, rfl⟩, fun _ _ h => h⟩
  close_answer _ _ _ _ _ _ := trivial
  answer_stable _ _ _ _ _ _ _ _ := trivial
  outside_inv change s s' h hinv := (outside_keeps hinv h).1
  outside_rely change s s' h hinv _ i := by
    obtain ⟨_, hkeeps, hread, hlater⟩ := outside_keeps hinv h
    exact ⟨hkeeps i, congrFun hread i, hlater⟩
  outside_unused change s s' h i hidle := by
    cases change with
    | changeStatus change =>
        simp only [service, outside, Option.map_eq_some_iff] at h
        obtain ⟨store, hchange, rfl⟩ := h
        have hkeeps : RowStore.Keeps bookingIndex i s.store.db store.db := by
          simp only [changeStatus, Option.map_eq_some_iff] at hchange
          obtain ⟨db, hwrite, rfl⟩ := hchange
          exact RowStore.overwrite_keeps (by intro f; rfl) hwrite
        exact hkeeps.idle hidle
    | _ =>
        simp only [service, outside, Option.some.injEq] at h
        exact h ▸ hidle
  handler_safe request i := by
    cases request with
    | searchFlights req =>
        exact (triple_searchFlights req).bind _ (fun _ _ _ _ => trivial) fun _ _ _ _ => trivial
    | getFlight flightId =>
        exact (triple_getFlight flightId).bind _ (fun _ _ _ _ => trivial) fun _ _ _ _ => trivial
    | reserveSeats flightId bookingId seatCount =>
        refine Discipline.Triple.bind (fun _ _ => True) ?_ (fun _ _ _ _ => trivial)
          fun _ _ _ _ => trivial
        refine Discipline.Triple.raiseIf (fun _ _ _ _ => trivial) fun _ => ?_
        refine triple_parseId (fun _ => trivial) fun id _ => ?_
        refine triple_parseId (fun _ => trivial) fun bookingID _ => ?_
        refine Discipline.Triple.raiseIf (fun _ _ _ _ => trivial) fun hcount => ?_
        have hpositive : 0 < seatCount := by simpa using hcount
        exact triple_writer (.reserveSeats id bookingID seatCount hpositive)
    | releaseReservation bookingId =>
        refine Discipline.Triple.bind (fun _ _ => True) ?_ (fun _ _ _ _ => trivial)
          fun _ _ _ _ => trivial
        refine Discipline.Triple.raiseIf (fun _ _ _ _ => trivial) fun _ => ?_
        refine triple_parseId (fun _ => trivial) fun bookingID _ => ?_
        exact triple_writer (.releaseReservation bookingID)

/-! ## Where the requests are decided -/

/-- Only a commit changes what the clients can see in the table. -/
def Command.quiet : Command → Prop
  | .db statement => statement ≠ .commit
  | _ => True

theorem silent (command : Command) (hquiet : Command.quiet command) :
    (recency ids ttl patience rows₀).Silent (service ids ttl) Deployment.timeline command := by
  intro i fate s answer s' hinv h
  simp only [service] at h
  cases command with
  | db statement =>
      obtain ⟨choice, hexecute, hexecuted⟩ := exec_db h
      rw [hexecuted.timeline, ((execute_frame hexecute hinv.1.1).2 hquiet).1]
      exact s.timeline.replaced_current
  | searchFlights origin destination date =>
      have hs : s' = s.reads i ∨ s' = s := by
        cases fate <;> simp only [exec, Option.some.injEq, Prod.mk.injEq, reduceCtorEq] at h <;>
          simp [h.2]
      rcases hs with rfl | rfl
      · rfl
      · rfl
  | get key =>
      have hs : s = s' := by
        cases fate <;> simp only [exec, Option.some.injEq, Prod.mk.injEq] at h <;> exact h.2
      rw [hs]
  | del key =>
      cases fate <;> simp only [exec, Option.some.injEq, Prod.mk.injEq, true_and] at h <;>
        rw [← h] <;> rfl
  | setIfNewer key version payload =>
      cases fate <;> simp only [exec, Option.some.injEq, Prod.mk.injEq, true_and] at h <;>
        rw [← h] <;> rfl
  | setVersionIfNewer key version =>
      cases fate <;> simp only [exec, Option.some.injEq, Prod.mk.injEq, true_and] at h <;>
        rw [← h] <;> rfl

/-- A request of the server is decided where the table answers it. -/
abbrev DecidesAll (ids : UuidText) (ttl patience : Int) (rows₀ : Rows) (request : Request)
    (i : Nat) (program : CacheProgram RpcError Response) (s : Deployment) : Prop :=
  (recency ids ttl patience rows₀).Decisive (service ids ttl)
    (timelineStore ids (ttl + patience)) Deployment.timeline Command.quiet request i program s

abbrev Serves (ids : UuidText) (ttl patience : Int) (request : Request)
    (result : Except RpcError Response) (s s' : Deployment) : Prop :=
  (timelineStore ids (ttl + patience)).Serves request result s.timeline s'.timeline

theorem serves_rejected {error : RpcError} (h : question ids request = .error error) :
    Serves ids ttl patience request (.error error) s s :=
  ⟨default, by simp only [timelineStore, h]⟩

theorem serves_answer {q : Question} (serving : Serving) {result : Except RpcError Response}
    (h : question ids request = .ok q)
    (hanswer : answer ids (ttl + patience) q serving s.timeline = some (result, s'.timeline)) :
    Serves ids ttl patience request result s s' :=
  ⟨serving, by simp only [timelineStore, h, hanswer]⟩

/-- What the table answers to a transaction of the store. -/
theorem serves_change {request₀ : FlightService.Request} {onError : StoreError → RpcError}
    {outcome : Except StoreError Reservation}
    (hquestion : question ids request = .ok (.change request₀ onError))
    (hserves : sequentialStore.Serves request₀ outcome s.store.db.rows s'.store.db.rows)
    (htimeline : s'.timeline = s.timeline.replaced s'.store.db.rows) :
    Serves ids ttl patience request (answered onError outcome) s s' := by
  obtain ⟨choice, hserve⟩ := hserves
  refine serves_answer (.change choice) hquestion ?_
  have hserve' : serve request₀ choice s.timeline.current =
      some (outcome, s'.store.db.rows) := hserve
  rw [answer, hserve', htimeline, Option.map_some]

theorem decided_onStore {ε α : Type} {program : Program Statement Answer ε α}
    {outcome : Except ε α} (h : program.Decided quietStatement outcome) :
    (onStore program).Decided Command.quiet outcome := by
  induction program with
  | ret value => exact h
  | fail error => exact h
  | step statement next ih => exact ⟨h.1, fun answer _ => ih answer (h.2 answer trivial)⟩

/-- A transaction that is decisive for the store decides its request. -/
theorem decidesAll_onStore {request₀ : FlightService.Request} {onError : StoreError → RpcError}
    {k : Except StoreError Reservation → CacheProgram RpcError Response}
    (hquestion : question ids request = .ok (.change request₀ onError))
    (hk : ∀ outcome, (k outcome).Decided Command.quiet (answered onError outcome))
    {program : Program Statement Answer StoreError Reservation} (s : Deployment)
    (h : FlightService.DecidesAll rows₀ request₀ i program s.store) :
    DecidesAll ids ttl patience rows₀ request i ((onStore program).attempt >>= k) s := by
  have hends : ∀ {outcome} {s : Deployment}, (∀ store, (FlightService.discipline rows₀).inv store →
      (FlightService.discipline rows₀).rely request₀ i s.store store →
        sequentialStore.Serves request₀ outcome store.db.rows store.db.rows) →
      DecidesAll ids ttl patience rows₀ request i (k outcome) s := by
    intro outcome s hserves
    refine Discipline.decisive_of_decided silent (hk outcome) fun s₁ hinv hrely => ?_
    exact serves_change hquestion (hserves s₁.store hinv.1 hrely.1)
      s₁.timeline.replaced_current.symm
  induction program generalizing s with
  | ret value => exact hends h
  | fail error => exact hends h
  | step statement next ih =>
      intro s₁ hinv hrely _ fate answer s₂ hexec
      obtain ⟨choice, hexecute, hexecuted⟩ := exec_db hexec
      rcases h s₁.store hinv.1 hrely.1 trivial choice answer s₂.store hexecute with
        ⟨hquiet, hrest⟩ | ⟨outcome, hserves, hdecided⟩
      · exact Or.inl ⟨hquiet, fun hinv₂ => ih answer s₂ (hrest hinv₂.1)⟩
      · refine Or.inr ⟨_, serves_change hquestion hserves hexecuted.timeline, ?_⟩
        exact Program.meets_attempt_bind (decided_onStore hdecided)
          fun outcome' heq => heq ▸ hk outcome'

theorem decided_invalidate (text : String) (id : Uuid) :
    (invalidate ids true text id).Decided Command.quiet (.ok ()) := by
  refine ⟨trivial, fun _ _ => ?_⟩
  change Program.Meets _ _ _ ((onStore (Store.getFlight id)).attempt >>= _)
  have hread : (onStore (Store.getFlight id)).Meets (fun _ _ => True) Command.quiet
      (fun _ => True) := by
    refine ⟨by simp [Command.quiet], fun answer _ => ?_⟩
    rcases answer with error | _ | row
    · trivial
    · trivial
    · trivial
  refine Program.meets_attempt_bind hread fun outcome _ => ?_
  rcases outcome with error | f
  · rfl
  · exact ⟨trivial, fun _ _ => ⟨trivial, fun _ _ => ⟨trivial, fun _ _ => ⟨trivial, fun _ _ =>
      ⟨trivial, fun _ _ => rfl⟩⟩⟩⟩⟩

/-- A writer, as `handle` runs it. -/
theorem decidesAll_writer {request₀ : FlightService.Request} {onError : StoreError → RpcError}
    {text : Reservation → String} {id : Reservation → Uuid}
    (hquestion : question ids request = .ok (.change request₀ onError))
    (hinv : (recency ids ttl patience rows₀).inv s) (hidle : s.store.db.Idle i) :
    DecidesAll ids ttl patience rows₀ request i
      (((onStore (FlightService.handle request₀)).attempt >>= fun outcome => match outcome with
        | .error error => .fail (onError error)
        | .ok r => do
            invalidate ids true (text r) (id r)
            return r) >>= fun r => .ret (.reservation r)) s := by
  rw [Program.bind_assoc]
  refine decidesAll_onStore hquestion (fun outcome => ?_) s
    ((FlightService.atomic rows₀).decisive request₀ i s.store hinv.1 hidle)
  rcases outcome with error | r
  · rfl
  · change Program.Meets _ _ _ ((invalidate ids true (text r) (id r) >>= fun _ => .ret r) >>= _)
    rw [Program.bind_assoc]
    exact Program.meets_bind (decided_invalidate _ _) (fun _ _ => rfl) fun _ h => by cases h

theorem question_getFlight {flightId : String} {id : Uuid} (hgiven : flightId ≠ "")
    (hparse : ids.parse flightId = some id) :
    question ids (.getFlight flightId) = .ok (.flight id) := by
  rw [question, if_neg hgiven, parsed, hparse]
  rfl

theorem serves_shown {flightId : String} {id : Uuid}
    (hquestion : question ids (.getFlight flightId) = .ok (.flight id))
    (moment : Option Nat) {rows : Rows} {result : Except RpcError Response}
    (hmoment : s.timeline.asOf (ttl + patience) moment = some rows)
    (hresult : shown ids id rows = result) (hsame : s'.timeline = s.timeline) :
    Serves ids ttl patience (.getFlight flightId) result s s' := by
  refine serves_answer (.look moment) hquestion ?_
  rw [answer, hmoment, Option.map_some, hresult, hsame]

/-- The reading of a flight decides. -/
theorem decidesAll_readFlight {flightId : String} {id : Uuid}
    {k : Except StoreError Flight → CacheProgram RpcError Response}
    (hquestion : question ids (.getFlight flightId) = .ok (.flight id))
    (hfailed : ∀ error, (k (.error error)).Decided Command.quiet (.error (Server.getError error)))
    (hread : ∀ row, (k (.ok row)).Decided Command.quiet
      (.ok (.flight (toProtoFlight ids ⟨id, row⟩))))
    (hidle : s.store.db.Idle i) :
    DecidesAll ids ttl patience rows₀ (.getFlight flightId) i
      ((onStore (Store.getFlight id)).attempt >>= k) s := by
  change DecidesAll ids ttl patience rows₀ (.getFlight flightId) i (.step (.db (.selectFlight id))
    fun answer => (onStore (returnError answer >>= _)).attempt >>= k) s
  refine Discipline.decisive_step (fun _ _ => False) stable_idle ?_ (fun _ _ _ h => h.elim) hidle
  intro s hinv hidle _ fate answer s' hexec
  have hsame : s'.timeline = s.timeline :=
    silent (.db (.selectFlight id)) (by simp [Command.quiet]) i fate s answer s' hinv hexec
  refine Or.inr ?_
  cases fate with
  | failure =>
      simp only [service, exec, Option.some.injEq, Prod.mk.injEq] at hexec
      obtain ⟨rfl, rfl⟩ := hexec
      exact ⟨_, serves_answer .failure hquestion rfl, hfailed (.db .failure)⟩
  | unanswered => cases hexec
  | proceed generated =>
      simp only [service, exec, proceed, Option.map_some, Option.some.injEq, Prod.mk.injEq] at hexec
      obtain ⟨rfl, _⟩ := hexec
      have hlookup : s.store.db.read i (.flight id) =
          (s.store.db.rows.lookup (.flight id) : Option Flight) := by
        rw [RowStore.read, RowStore.view, hidle.pending, AList.empty_union]
      have hserves : ∀ result, shown ids id s.store.db.rows = result →
          Serves ids ttl patience (.getFlight flightId) result s s' := by
        intro result hresult
        exact serves_shown hquestion none rfl hresult hsame
      rw [hlookup]
      cases hrow : (s.store.db.rows.lookup (.flight id) : Option Flight) with
      | none => exact ⟨_, hserves _ (by rw [shown, hrow]), hfailed .notFound⟩
      | some row => exact ⟨_, hserves _ (by rw [shown, hrow]), hread row⟩

theorem handle_getFlight {flightId : String} {id : Uuid} (hgiven : flightId ≠ "")
    (hparse : ids.parse flightId = some id) :
    handle ids true (.getFlight flightId) =
      (.step (.get (flightKey flightId)) fun payload => match payload with
        | some (.flight f) => .ret (.flight (toProtoFlight ids f))
        | _ => (onStore (Store.getFlight id)).attempt >>= fun outcome => match outcome with
            | .error error => .fail (Server.getError error)
            | .ok row => .step (.setIfNewer (flightKey flightId) row.version (.flight ⟨id, row⟩))
                fun _ => .ret (.flight (toProtoFlight ids ⟨id, row⟩))) := by
  simp only [handle, getFlight, Program.raiseIf, beq_iff_eq, hgiven, if_false, parseId, hparse,
    Program.ret_bind, getCached, if_true]
  refine congrArg (Program.step _) (funext fun payload => ?_)
  rcases payload with _ | ⟨f⟩ | ⟨fs⟩
  case some.flight => rfl
  all_goals
    refine (Program.bind_assoc (onStore (Store.getFlight id)).attempt _ _).trans ?_
    refine congrArg (Program.bind _) (funext fun outcome => ?_)
    rcases outcome with error | row
    · rfl
    · rfl

theorem exec_get {key : CacheKey} {fate : Fate} {found : Option Payload}
    (h : exec ttl i (.get key) fate s = some (found, s')) :
    s' = s ∧ ∀ payload, found = some payload → s.get key = some payload := by
  cases fate with
  | proceed generated =>
      simp only [exec, Option.some.injEq, Prod.mk.injEq] at h
      exact ⟨h.2.symm, fun payload hfound => h.1.trans hfound⟩
  | failure =>
      simp only [exec, Option.some.injEq, Prod.mk.injEq] at h
      exact ⟨h.2.symm, fun payload hfound => by simp [← h.1] at hfound⟩
  | unanswered =>
      simp only [exec, Option.some.injEq, Prod.mk.injEq] at h
      exact ⟨h.2.symm, fun payload hfound => by simp [← h.1] at hfound⟩

/-- `GetFlight` is decided by what it finds in the cache, or by its reading. -/
theorem decidesAll_getFlight {flightId : String} {id : Uuid} (hgiven : flightId ≠ "")
    (hparse : ids.parse flightId = some id) (hidle : s.store.db.Idle i) :
    DecidesAll ids ttl patience rows₀ (.getFlight flightId) i
      (handle ids true (.getFlight flightId)) s := by
  have hquestion := question_getFlight hgiven hparse
  rw [handle_getFlight hgiven hparse]
  refine Discipline.decisive_step (fun found s => (∀ f, found ≠ some (.flight f)) ∧
    s.store.db.Idle i) stable_idle (fun s hinv hidle _ fate found s' hexec => ?_)
    (fun found s _ h => ?_) hidle
  · obtain ⟨rfl, hget⟩ := exec_get hexec
    rcases found with _ | ⟨f⟩ | ⟨fs⟩
    · exact Or.inl ⟨trivial, by simp, hidle⟩
    · obtain ⟨moment, rows, hmoment, hread⟩ := hinv.2.get (hget _ rfl)
      cases hread with
      | @flight _ id' row hparse' hrow =>
          obtain rfl := Option.some.inj (hparse.symm.trans hparse')
          exact Or.inr ⟨_, serves_shown hquestion moment hmoment (by rw [shown, hrow]) rfl, rfl⟩
    · exact Or.inl ⟨trivial, by simp, hidle⟩
  · have hread : DecidesAll ids ttl patience rows₀ (.getFlight flightId) i
        ((onStore (Store.getFlight id)).attempt >>= fun outcome => match outcome with
          | .error error => .fail (Server.getError error)
          | .ok row => .step (.setIfNewer (flightKey flightId) row.version (.flight ⟨id, row⟩))
              fun _ => .ret (.flight (toProtoFlight ids ⟨id, row⟩))) s :=
      decidesAll_readFlight hquestion (fun _ => rfl) (fun _ => ⟨trivial, fun _ _ => rfl⟩) h.2
    rcases found with _ | ⟨f⟩ | ⟨fs⟩
    · exact hread
    · exact absurd rfl (h.1 f)
    · exact hread

theorem handle_searchFlights {req : SearchFlightsRequest} (hgiven : req.given = true) :
    handle ids true (.searchFlights req) =
      (.step (.get req.key) fun payload => match payload with
        | some (.flights fs) => .ret (.flights (fs.map (toProtoFlight ids)))
        | _ => .step (.searchFlights req.origin req.destination req.date) fun answer =>
            match answer with
            | .error _ => .fail ⟨.internal, "ошибка поиска"⟩
            | .ok fs => .step (.setIfNewer req.key (maxVersion fs) (.flights fs))
                fun _ => .ret (.flights (fs.map (toProtoFlight ids)))) := by
  have hpasses : (req.origin == "" || req.destination == "") = false := by
    simpa [SearchFlightsRequest.given] using hgiven
  simp only [handle, searchFlights, hpasses, Program.raiseIf, Bool.false_eq_true, if_false,
    Program.ret_bind, getSearch, if_true]
  refine congrArg (Program.step _) (funext fun payload => ?_)
  rcases payload with _ | ⟨f⟩ | ⟨fs⟩
  case some.flights => rfl
  all_goals
    refine congrArg (Program.step _) (funext fun answer => ?_)
    rcases answer with error | fs
    · rfl
    · rfl

/-- `SearchFlights` is decided by what it finds in the cache, or by its query. -/
theorem decidesAll_searchFlights {req : SearchFlightsRequest} (hgiven : req.given = true)
    (hidle : s.store.db.Idle i) :
    DecidesAll ids ttl patience rows₀ (.searchFlights req) i
      (handle ids true (.searchFlights req)) s := by
  have hquestion : question ids (.searchFlights req) = .ok (.search req) := if_pos hgiven
  have hserves : ∀ {s s' : Deployment} {rows} (asked : SearchFlightsRequest) (moment),
      asked.key = req.key → s.timeline.asOf (ttl + patience) moment = some rows →
      s'.timeline = s.timeline →
      Serves ids ttl patience (.searchFlights req) (.ok (listed ids asked rows)) s s' := by
    intro s s' rows asked moment hkey hmoment hsame
    cases hplain : req.plain with
    | true =>
        refine serves_answer (.look moment) hquestion ?_
        rw [answer, listed_of_key hplain hkey, hmoment, Option.map_some, hsame]
    | false =>
        refine serves_answer (.shared moment asked) hquestion ?_
        rw [answer, if_pos ⟨hplain, hkey⟩, hmoment, Option.map_some, hsame]
  rw [handle_searchFlights hgiven]
  refine Discipline.decisive_step (fun found s => (∀ fs, found ≠ some (.flights fs)) ∧
    s.store.db.Idle i) stable_idle (fun s hinv hidle _ fate found s' hexec => ?_)
    (fun found s _ h => ?_) hidle
  · obtain ⟨rfl, hget⟩ := exec_get hexec
    rcases found with _ | ⟨f⟩ | ⟨fs⟩
    · exact Or.inl ⟨trivial, by simp, hidle⟩
    · exact Or.inl ⟨trivial, by simp, hidle⟩
    · obtain ⟨moment, rows, hmoment, hread⟩ := hinv.2.get (hget _ rfl)
      generalize hkey : req.key = key at hread
      cases hread with
      | search asked hasked =>
          exact Or.inr ⟨_, hserves asked moment (hasked.trans hkey.symm) hmoment rfl, rfl⟩
  · have hread : DecidesAll ids ttl patience rows₀ (.searchFlights req) i
        (.step (.searchFlights req.origin req.destination req.date) fun answer =>
            match answer with
            | .error _ => .fail ⟨.internal, "ошибка поиска"⟩
            | .ok fs => .step (.setIfNewer req.key (maxVersion fs) (.flights fs))
                fun _ => .ret (.flights (fs.map (toProtoFlight ids)))) s := by
      refine Discipline.decisive_step (fun _ _ => False) stable_idle ?_ (fun _ _ _ h => h.elim) h.2
      intro s _ _ _ fate answer s' hexec
      refine Or.inr ?_
      cases fate with
      | failure =>
          simp only [service, exec, Option.some.injEq, Prod.mk.injEq] at hexec
          obtain ⟨rfl, rfl⟩ := hexec
          exact ⟨_, serves_answer .failure hquestion rfl, rfl⟩
      | unanswered => cases hexec
      | proceed generated =>
          simp only [service, exec, Option.some.injEq, Prod.mk.injEq] at hexec
          obtain ⟨rfl, rfl⟩ := hexec
          exact ⟨_, hserves req none rfl rfl rfl, trivial, fun _ _ => rfl⟩
    rcases found with _ | ⟨f⟩ | ⟨fs⟩
    · exact hread
    · exact hread
    · exact absurd rfl (h.1 fs)

theorem decidesAll_reserveSeats {flightId bookingId : String} {seatCount : Int}
    (hinv : (recency ids ttl patience rows₀).inv s) (hidle : s.store.db.Idle i) :
    DecidesAll ids ttl patience rows₀ (.reserveSeats flightId bookingId seatCount) i
      (handle ids true (.reserveSeats flightId bookingId seatCount)) s := by
  by_cases hgiven : flightId = "" ∨ bookingId = ""
  · have hpasses : (flightId == "" || bookingId == "") = true := by simpa using hgiven
    simp only [handle, reserveSeats, hpasses, Program.raiseIf, if_true, Program.fail_bind]
    exact fun s₁ _ _ => serves_rejected (if_pos hgiven)
  have hpasses : (flightId == "" || bookingId == "") = false := by simpa using hgiven
  simp only [handle, reserveSeats, hpasses, Program.raiseIf, Bool.false_eq_true, if_false,
    Program.ret_bind, parseId]
  cases hparse : ids.parse flightId with
  | none =>
      refine fun s₁ _ _ => serves_rejected ?_
      rw [question, if_neg hgiven, parsed, hparse]
      rfl
  | some id =>
      cases hparse' : ids.parse bookingId with
      | none =>
          refine fun s₁ _ _ => serves_rejected ?_
          rw [question, if_neg hgiven, parsed, hparse, parsed, hparse']
          rfl
      | some bookingID =>
          simp only [Program.ret_bind]
          by_cases hcount : 0 < seatCount
          · have hnot : decide (seatCount ≤ 0) = false := by simpa using hcount
            simp only [hnot, Bool.false_eq_true, if_false, Program.ret_bind]
            have hquestion : question ids (.reserveSeats flightId bookingId seatCount) = .ok
                (.change (.reserveSeats id bookingID seatCount hcount) Server.reserveError) := by
              rw [question, if_neg hgiven, parsed, hparse, parsed, hparse']
              exact dif_pos hcount
            exact decidesAll_writer hquestion hinv hidle
          · have hnot : decide (seatCount ≤ 0) = true := by simpa using hcount
            simp only [hnot, if_true, Program.fail_bind]
            refine fun s₁ _ _ => serves_rejected ?_
            rw [question, if_neg hgiven, parsed, hparse, parsed, hparse']
            exact dif_neg hcount

theorem decidesAll_releaseReservation {bookingId : String}
    (hinv : (recency ids ttl patience rows₀).inv s) (hidle : s.store.db.Idle i) :
    DecidesAll ids ttl patience rows₀ (.releaseReservation bookingId) i
      (handle ids true (.releaseReservation bookingId)) s := by
  by_cases hgiven : bookingId = ""
  · subst hgiven
    exact fun s₁ _ _ => serves_rejected rfl
  have hpasses : (bookingId == "") = false := by simpa using hgiven
  simp only [handle, releaseReservation, hpasses, Program.raiseIf, Bool.false_eq_true, if_false,
    Program.ret_bind, parseId]
  cases hparse : ids.parse bookingId with
  | none =>
      refine fun s₁ _ _ => serves_rejected ?_
      rw [question, if_neg hgiven, parsed, hparse]
      rfl
  | some bookingID =>
      simp only [Program.ret_bind]
      have hquestion : question ids (.releaseReservation bookingId) =
          .ok (.change (.releaseReservation bookingID) Server.releaseError) := by
        rw [question, if_neg hgiven, parsed, hparse]
        rfl
      exact decidesAll_writer hquestion hinv hidle

theorem outside_timeline {change : Outside} (hinv : (recency ids ttl patience rows₀).inv s)
    (h : outside change s = some s') :
    (timelineStore ids (ttl + patience)).outside change s.timeline = some s'.timeline := by
  cases change with
  | changeStatus change =>
      simp only [outside, Option.map_eq_some_iff] at h
      obtain ⟨store, hchange, rfl⟩ := h
      have hset : setStatus change s.store.db.rows = some store.db.rows :=
        (FlightService.atomic rows₀).outside change s.store store hinv.1 hchange
      exact (congrArg (Option.map s.timeline.replaced) hset).trans rfl
  | _ =>
      simp only [outside, Option.some.injEq] at h
      subst h
      rfl

theorem atomic (ids : UuidText) (ttl patience : Int) (rows₀ : Rows) :
    Atomic (service ids ttl) (recency ids ttl patience rows₀)
      (timelineStore ids (ttl + patience)) Deployment.timeline Command.quiet where
  sound := sound
  silent := silent
  decisive request i s hinv hidle := by
    cases request with
    | searchFlights req =>
        cases hgiven : req.given with
        | true => exact decidesAll_searchFlights hgiven hidle
        | false =>
            have hpasses : (req.origin == "" || req.destination == "") = true := by
              rwa [SearchFlightsRequest.given, Bool.not_eq_false'] at hgiven
            simp only [service, handle, searchFlights, hpasses, Program.raiseIf, if_true]
            exact fun s₁ _ _ => serves_rejected (by simp [question, hgiven])
    | getFlight flightId =>
        by_cases hgiven : flightId = ""
        · subst hgiven
          exact fun s₁ _ _ => serves_rejected rfl
        cases hparse : ids.parse flightId with
        | none =>
            simp only [service, handle, getFlight, Program.raiseIf, beq_iff_eq, hgiven, if_false,
              parseId, hparse, Program.ret_bind]
            refine fun s₁ _ _ => serves_rejected ?_
            rw [question, if_neg hgiven, parsed, hparse]
            rfl
        | some id => exact decidesAll_getFlight hgiven hparse hidle
    | reserveSeats flightId bookingId seatCount => exact decidesAll_reserveSeats hinv hidle
    | releaseReservation bookingId => exact decidesAll_releaseReservation hinv hidle
  close _ _ _ := rfl
  outside _ _ _ hinv h := outside_timeline hinv h

theorem allowed_of_storesWithin {pool : DeploymentPool} {event : Event Request Fate Outside}
    (h : storesWithin patience pool event = true) :
    (recency ids ttl patience rows₀).Allowed pool event := by
  cases event with
  | start request => exact fun _ _ _ _ => ⟨trivial, trivial⟩
  | stop i => trivial
  | outside change => trivial
  | step i fate =>
      intro request command next hruns
      cases command with
      | setIfNewer key version payload =>
          simp only [storesWithin, Service.program?_eq_some.mpr ⟨request, hruns⟩,
            decide_eq_true_eq] at h
          exact h
      | _ => trivial

/-- Whatever becomes of the commands to Redis, of its keys and of its replies, the server is
    a table of flights. When each payload is stored within `patience` of its reading, every
    run is one in which each request is served in one of its own steps: a reservation or
    release in the rows as they are, a lookup in the rows as they are or were less than
    `ttl + patience` before. A caller waits 3 seconds, so that `patience` is at most that.
    A search with a ':' in a name may get the list of another with the same key. -/
theorem answers_in_time (ids : UuidText) (ttl patience : Int) (hschema : Schema rows₀)
    (clock : Int) {events : List (Event Request Fate Outside)} {pool : DeploymentPool}
    (htime : (service ids ttl).passes (storesWithin patience)
      (Pool.initial (Deployment.ofRows rows₀ clock)) events = true)
    (hrun : (service ids ttl).run (Pool.initial (Deployment.ofRows rows₀ clock)) events =
      some pool) :
    ∃ (events' : List (Event Request Serving Outside)) (pool' : Pool _ _ _ _ _ Timeline),
      Condensed events events' ∧
        (timelineStore ids (ttl + patience)).service.run
          (Pool.initial ⟨clock, rows₀, []⟩) events' = some pool' ∧
        pool'.shared = pool.shared.timeline ∧
        ∀ i request result, pool'.Answered i request result ↔
          pool.Answered i request result := by
  have hinitial : Atomic.Simulates (service ids ttl) (recency ids ttl patience rows₀)
      (timelineStore ids (ttl + patience)) Deployment.timeline Command.quiet
      (Pool.initial (Deployment.ofRows rows₀ clock)) (Pool.initial ⟨clock, rows₀, []⟩) := by
    refine Atomic.simulates_initial ⟨⟨hschema.toTables.consistent, accounts_initial hschema⟩, ?_⟩
      fun i => RowStore.idle_ofRows rows₀ i
    intro key payload hstored
    cases hstored
  obtain ⟨events', pool', hcondensed, hrun', hsimulates⟩ := (atomic ids ttl patience rows₀).run
    (fun _ _ h => allowed_of_storesWithin h) hinitial htime hrun
  exact ⟨events', pool', hcondensed, hrun', hsimulates.shared,
    fun i request result => hsimulates.answered⟩

def proceeds (i n : Nat) : List (Event Request Fate Outside) :=
  List.replicate n (.step i (.proceed 20))

/-- The payload of a flight outlives a reservation, since its deletion fails. -/
def failedDeletion : List (Event Request Fate Outside) :=
  .start (.getFlight (formatUuid 1)) :: proceeds 0 4 ++
    .start (.reserveSeats (formatUuid 1) (formatUuid 7) 3) :: proceeds 1 5 ++
    .step 1 .failure :: proceeds 1 7 ++
    [.outside (.elapse 5000), .start (.getFlight (formatUuid 1))] ++ proceeds 2 2 ++
    [.outside (.elapse 600000), .start (.getFlight (formatUuid 1))] ++ proceeds 3 4

/-- The available seats in the answer to a `GetFlight` -/
def seatsShown (pool : DeploymentPool) (i : Nat) : Option Int :=
  match pool.threads[i]? with
  | some ⟨_, .answered (.ok (.flight f))⟩ => some f.availableSeats
  | _ => none

theorem answers_in_time_sample : ∃ pool : DeploymentPool,
    (service uuidText 600000).run (Pool.initial (Deployment.ofRows sampleRows 0)) failedDeletion =
        some pool ∧
      (List.range 4).map (seatsShown pool) = [some 4, none, some 4, some 1] ∧
      ∃ (events' : List (Event Request Serving Outside)) (pool' : Pool _ _ _ _ _ Timeline),
        Condensed failedDeletion events' ∧
          (timelineStore uuidText (600000 + 3000)).service.run
            (Pool.initial ⟨0, sampleRows, []⟩) events' = some pool' ∧
          pool'.shared = pool.shared.timeline ∧
          ∀ i request result, pool'.Answered i request result ↔
            pool.Answered i request result := by
  have hrun : ((service uuidText 600000).run (Pool.initial (Deployment.ofRows sampleRows 0))
      failedDeletion).isSome := by
    decide +kernel
  exact ⟨_, (Option.some_get hrun).symm, by decide +kernel +revert,
    answers_in_time uuidText 600000 3000 sampleRows_schema 0 (by decide +kernel)
      (Option.some_get hrun).symm⟩

end SoaHomework.FlightCache.Unreliable
