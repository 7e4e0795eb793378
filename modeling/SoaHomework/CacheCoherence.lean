import SoaHomework.CachedAnswers

/-!
# Coherence of the flight cache

The methods of the server with the cache, interleaved command by command. A
writer that has been answered has deleted the payload of its flight and, if it
could read the flight again, those of the two searches that list it. What is
stored there later is at least as new as its change, as long as every fill that
the version guard admits comes in time. The guard does not see to that between
the deletion and the setting of the version, and for a list, whose version is
the largest of its flights', not after it either.
-/

namespace SoaHomework.FlightCache

open StatementProgram FlightService Grpc VersionedCache

/-! ## The invariant -/

/-- The payload shows flight `id` at the version. -/
def Payload.shows (payload : Payload) (id : Uuid) (version : Int) : Prop :=
  ∃ f ∈ payload.rows, f.id = id ∧ f.row.version = version

/-- The columns that no request changes. -/
def fixedColumns (f : Flight) : Flight := { f with availableSeats := 0, version := 0 }

/-- The keys of the searches that list the flight. -/
def listKeys (f : Flight) : List CacheKey :=
  [searchKey f.origin f.destination (formatDate (utcDate f.departureTime)),
    searchKey f.origin f.destination "any"]

theorem lists_congr {f g : Flight} (h : fixedColumns f = fixedColumns g)
    (req : SearchFlightsRequest) : req.lists f = req.lists g := by
  have hfixed : ∀ row, req.lists (fixedColumns row) = req.lists row := fun _ => rfl
  rw [← hfixed f, h, hfixed]

theorem listKeys_congr {f g : Flight} (h : fixedColumns f = fixedColumns g) :
    listKeys f = listKeys g := by
  have hfixed : ∀ row, listKeys (fixedColumns row) = listKeys row := fun _ => rfl
  rw [← hfixed f, h, hfixed]

/-- What holds of the database and Redis, if only requests that meet `ok` use
    the cache. -/
structure CacheInv (ids : UuidText) (rows₀ : Rows) (ok : Request → Prop) (s : ServerState) :
    Prop where
  consistent : s.store.db.Consistent bookingIndex
  tables : Tables s.store.db.rows
  columns : ∀ id (row : Flight), s.store.db.rows.lookup (.flight id) = some row →
    ∃ row₀ : Flight, rows₀.lookup (.flight id) = some row₀ ∧
      fixedColumns row = fixedColumns row₀
  committed : ∀ i change, s.changes i = some change →
    ∃ row : Flight, s.store.db.rows.lookup (.flight change.item) = some row ∧
      change.version ≤ row.version
  coherent : Coherent Payload.shows s.redis s.changes
  named : ∀ text payload, s.redis.payload (flightKey text) = some payload →
    ∃ f, payload = .flight f ∧ ids.parse text = some f.id
  searched : ∀ key payload, s.redis.payload (.search key) = some payload →
    ∃ fs, payload = .flights fs ∧ ∀ f ∈ fs, ∃ (req : SearchFlightsRequest) (row₀ : Flight),
      ok (.searchFlights req) ∧ req.key = .search key ∧
        rows₀.lookup (.flight f.id) = some row₀ ∧ req.lists row₀ = true

/-- Nothing of request `i` has changed. -/
structure Untouched (i : Nat) (s s' : ServerState) : Prop where
  store : RowStore.Keeps bookingIndex i s.store.db s'.store.db
  changes : s'.changes i = s.changes i
  unread : s'.unread i = s.unread i

theorem Untouched.refl (i : Nat) (s : ServerState) : Untouched i s s :=
  ⟨RowStore.Keeps.refl i s.store.db, rfl, rfl⟩

theorem Untouched.trans {i : Nat} {s s' s'' : ServerState} (h : Untouched i s s')
    (h' : Untouched i s' s'') : Untouched i s s'' :=
  ⟨h.store.trans h'.store, h'.changes.trans h.changes, h'.unread.trans h.unread⟩

/-- The request has changed nothing yet. -/
structure Starting (i : Nat) (s : ServerState) : Prop where
  changes : s.changes i = none
  unread : s.unread i = false

/-- A fill comes in time. -/
def Command.inTime (s : ServerState) : Command → Prop
  | .setIfNewer key version payload =>
      InTime Payload.shows s.redis s.changes key version payload
  | _ => True

theorem maxVersion_spec (fs : List FlightRow) :
    (∀ f ∈ fs, f.row.version ≤ maxVersion fs) ∧
      (maxVersion fs = 0 ∨ ∃ f ∈ fs, f.row.version = maxVersion fs) := by
  rw [maxVersion]
  generalize (0 : Int) = first
  suffices ∀ largest : Int, largest = fs.foldl (fun version f =>
      if version < f.row.version then f.row.version else version) first →
      first ≤ largest ∧ (∀ f ∈ fs, f.row.version ≤ largest) ∧
        (largest = first ∨ ∃ f ∈ fs, f.row.version = largest) from (this _ rfl).2
  induction fs generalizing first with
  | nil => simp
  | cons f fs ih =>
      intro largest hlargest
      obtain ⟨hfirst, hrest, hmem⟩ := ih _ largest hlargest
      by_cases hlt : first < f.row.version
      · simp only [hlt, if_true] at hfirst hmem
        refine ⟨by omega, List.forall_mem_cons.mpr ⟨hfirst, hrest⟩, ?_⟩
        rcases hmem with heq | ⟨f', hf', heq⟩
        · exact Or.inr ⟨f, List.mem_cons_self, heq.symm⟩
        · exact Or.inr ⟨f', List.mem_cons_of_mem _ hf', heq⟩
      · simp only [hlt, if_false] at hfirst hmem
        refine ⟨hfirst, List.forall_mem_cons.mpr ⟨by omega, hrest⟩, ?_⟩
        rcases hmem with heq | ⟨f', hf', heq⟩
        · exact Or.inl heq
        · exact Or.inr ⟨f', List.mem_cons_of_mem _ hf', heq⟩

/-- The versions that are sent to Redis: a payload has the largest one of its flights, and a
    writer sets the one of its own change or a later one. -/
def Versioned (i : Nat) (s : ServerState) : Command → Prop
  | .setIfNewer _ version (.flight f) => version = f.row.version
  | .setIfNewer _ version (.flights fs) => version = maxVersion fs
  | .setVersionIfNewer _ version => ∃ change, s.changes i = some change ∧ change.version ≤ version
  | _ => True

/-- The text under which a request deletes the payload of the flight `id` that
    it has changed. -/
def Request.deletes (ids : UuidText) (id : Uuid) (text : String) : Request → Prop
  | .reserveSeats flightId _ _ => text = flightId ∧ ids.parse flightId = some id
  | .releaseReservation _ => text = ids.text id
  | _ => False

/-- What an answered writer has deleted. -/
structure Told (ids : UuidText) (rows₀ : Rows) (ok : Request → Prop) (request : Request)
    (change : Change CacheKey Uuid) (unread : Bool) : Prop where
  admitted : ok request
  flight : ∃ text, flightKey text ∈ change.deleted ∧ request.deletes ids change.item text
  searches : unread = false → ∃ row₀ : Flight, rows₀.lookup (.flight change.item) = some row₀ ∧
    ∀ key ∈ listKeys row₀, key ∈ change.deleted

/-- What is known of an answered request. -/
def Answered (ids : UuidText) (rows₀ : Rows) (ok : Request → Prop) (request : Request) (i : Nat)
    (s : ServerState) : Prop :=
  ∀ change, s.changes i = some change → Told ids rows₀ ok request change (s.unread i)

def coherence (ids : UuidText) (rows₀ : Rows) (ok : Request → Prop) :
    Discipline Command RpcError Response Request ServerState where
  inv := CacheInv ids rows₀ ok
  rely _ i s s' := Untouched i s s'
  guarantee _ i s s' := ∀ j, i ≠ j → Untouched j s s'
  unused i s := s.store.db.Idle i ∧ Starting i s
  compatible _ _ := True
  permitted request _ command s := ok request ∧ command.inTime s
  known _ i command s := Versioned i s command
  answer request i _ s := Answered ids rows₀ ok request i s

variable {ids : UuidText} {rows₀ : Rows} {ok : Request → Prop} {i : Nat} {s s' : ServerState}

/-! ## What one command does -/

/-- The history of one request is replaced. -/
theorem untouched_changes {j : Nat} (hij : i ≠ j) (redis : Redis)
    (change : Option (Change CacheKey Uuid)) :
    Untouched j s { s with redis := redis, changes := Function.update s.changes i change } :=
  ⟨RowStore.Keeps.refl j s.store.db, Function.update_of_ne hij.symm _ _, rfl⟩

/-- The cache loses payloads and the record of one change grows. -/
theorem CacheInv.records (h : CacheInv ids rows₀ ok s) {redis : Redis}
    {change change' : Change CacheKey Uuid} (hi : s.changes i = some change)
    (hitem : change'.item = change.item) (hversion : change'.version = change.version)
    (hpayload : ∀ k payload, redis.payload k = some payload → s.redis.payload k = some payload)
    (hcoherent : Coherent Payload.shows redis (Function.update s.changes i (some change'))) :
    CacheInv ids rows₀ ok
      { s with redis := redis, changes := Function.update s.changes i (some change') } where
  consistent := h.consistent
  tables := h.tables
  columns := h.columns
  committed j other hj := by
    by_cases hij : j = i
    · subst hij
      simp only [Function.update_self, Option.some.injEq] at hj
      subst hj
      rw [hitem, hversion]
      exact h.committed j change hi
    · simp only [Function.update_of_ne hij] at hj
      exact h.committed j other hj
  coherent := hcoherent
  named text payload hredis := h.named text payload (hpayload _ _ hredis)
  searched key payload hredis := h.searched key payload (hpayload _ _ hredis)

/-- A statement other than a commit. -/
structure Executed (i : Nat) (statement : Statement) (s s' : ServerState)
    (answer : Answer statement) : Prop where
  untouched : ∀ j, i ≠ j → Untouched j s s'
  changes : s'.changes = s.changes
  redis : s'.redis = s.redis
  rows : s'.store.db.rows = s.store.db.rows
  consistent : s'.store.db.Consistent bookingIndex
  how : (answer = .error .failure ∧ s'.store = s.store ∧
      ((∀ id, statement ≠ .selectFlight id) ∨ s'.unread i = true)) ∨
    ∃ generated, proceed i generated s.store statement = some (answer, s'.store) ∧
      s'.unread = s.unread

theorem executed_of_exec {statement : Statement} {choice : Choice} {answer : Answer statement}
    (hs : s.store.db.Consistent bookingIndex) (hcommit : statement ≠ .commit)
    (h : exec i (.db statement) choice s = some (answer, s')) :
    Executed i statement s s' answer := by
  cases choice with
  | failure =>
      simp only [exec, Option.some.injEq, Prod.mk.injEq] at h
      obtain ⟨rfl, rfl⟩ := h
      cases statement with
      | selectFlight id =>
          refine ⟨fun j hij => ⟨RowStore.Keeps.refl j _, rfl, ?_⟩, rfl, rfl, rfl, hs,
            Or.inl ⟨rfl, rfl, Or.inr ?_⟩⟩
          · exact Function.update_of_ne hij.symm _ _
          · exact Function.update_self _ _ _
      | _ =>
          exact ⟨fun j _ => Untouched.refl j s, rfl, rfl, rfl, hs,
            Or.inl ⟨rfl, rfl, Or.inl fun id hid => by cases hid⟩⟩
  | proceed generated =>
      simp only [exec, Option.map_eq_some_iff, Prod.mk.injEq] at h
      obtain ⟨⟨answer', store⟩, hproceed, rfl, rfl⟩ := h
      have hafter : s.afterStatement i statement store = { s with store := store } := by
        cases statement with
        | commit => exact absurd rfl hcommit
        | _ => rfl
      have hexecute : execute i statement (.proceed generated) s.store =
          some (answer', store) := hproceed
      obtain ⟨hframe, hsame⟩ := execute_frame hexecute hs
      rw [hafter]
      exact ⟨fun j hij => ⟨hframe.keeps j hij, rfl, rfl⟩, rfl, rfl, (hsame hcommit).1,
        hframe.consistent, Or.inr ⟨generated, hproceed, rfl⟩⟩

theorem Executed.inv {statement : Statement} {answer : Answer statement}
    (h : Executed i statement s s' answer) (hs : CacheInv ids rows₀ ok s) :
    CacheInv ids rows₀ ok s' where
  consistent := h.consistent
  tables := h.rows ▸ hs.tables
  columns := h.rows ▸ hs.columns
  committed := by
    rw [h.changes, h.rows]
    exact hs.committed
  coherent := by
    rw [h.changes, h.redis]
    exact hs.coherent
  named := h.redis ▸ hs.named
  searched := h.redis ▸ hs.searched

/-- The state after the commit of a reservation or a release. -/
theorem CacheInv.commit (h : CacheInv ids rows₀ ok s) {value : Reservation}
    (hwritten : Written i value s.store) :
    CacheInv ids rows₀ ok (s.afterStatement i .commit
        ⟨s.store.db.commit i, s.store.journal ++ seatChanges s.store.db i⟩) ∧
      ∃ version, (s.afterStatement i .commit
          ⟨s.store.db.commit i, s.store.journal ++ seatChanges s.store.db i⟩).changes i =
        some ⟨value.flightID, version, [], []⟩ := by
  obtain ⟨id, change, row, hrow, hpending⟩ := hwritten.pending
  have hview : s.store.db.view i =
      (s.store.db.rows.insert (.flight value.flightID) (changeSeats change row)).insert
        (.reservation id) value := by
    rw [RowStore.view, hpending, union_writes]
  have hflights : writtenFlights s.store.db i =
      [⟨value.flightID, changeSeats change row⟩] := by
    rw [writtenFlights, hpending]
    rfl
  have hlookup : ∀ g (now : Flight), (s.store.db.view i).lookup (.flight g) = some now →
      ∃ old : Flight, s.store.db.rows.lookup (.flight g) = some old ∧
        fixedColumns now = fixedColumns old ∧ old.version ≤ now.version := by
    intro g now hnow
    rw [hview, lookup_flight_commit] at hnow
    split at hnow
    · rename_i hg
      rw [← Option.some.inj hnow, hg]
      exact ⟨row, hrow, rfl, Int.le_add_one (le_refl _)⟩
    · exact ⟨now, hnow, rfl, le_refl _⟩
  have hgrows : ∀ g (old : Flight), s.store.db.rows.lookup (.flight g) = some old →
      ∃ now : Flight, (s.store.db.view i).lookup (.flight g) = some now ∧
        old.version ≤ now.version := by
    intro g old hold
    rw [hview, lookup_flight_commit]
    split
    · rename_i hg
      subst hg
      obtain rfl := Option.some.inj (hrow.symm.trans hold)
      exact ⟨_, rfl, Int.le_add_one (le_refl _)⟩
    · exact ⟨old, hold, le_refl _⟩
  simp only [ServerState.afterStatement, hflights, recorded]
  refine ⟨⟨RowStore.commit_consistent i h.consistent, hwritten.tables h.tables, ?_, ?_,
    h.coherent.changed i _ _, h.named, h.searched⟩, _, Function.update_self _ _ _⟩
  · intro g now hnow
    obtain ⟨old, hold, hcolumns, _⟩ := hlookup g now hnow
    obtain ⟨row₀, hrow₀, hsame⟩ := h.columns g old hold
    exact ⟨row₀, hrow₀, hcolumns.trans hsame⟩
  · intro j made hj
    by_cases hij : j = i
    · subst hij
      simp only [Function.update_self, Option.some.injEq] at hj
      subst hj
      refine ⟨changeSeats change row, ?_, le_refl _⟩
      show (s.store.db.view j).lookup (.flight value.flightID) = _
      rw [hview, lookup_flight_commit, if_pos rfl]
    · simp only [Function.update_of_ne hij] at hj
      obtain ⟨old, hold, hle⟩ := h.committed j made hj
      obtain ⟨now, hnow, hgrown⟩ := hgrows _ old hold
      exact ⟨now, hnow, le_trans hle hgrown⟩

/-! ## The transactions of a writer -/

variable {request : Request} {β : Type}

/-- The request has changed flight `id`, to a version within `bound`, and has
    deleted the payloads of `keys`. -/
structure Deleting (i : Nat) (id : Uuid) (bound : Int → Prop) (keys : List CacheKey)
    (s : ServerState) : Prop where
  idle : s.store.db.Idle i
  unread : s.unread i = false
  change : ∃ change, s.changes i = some change ∧ change.item = id ∧ bound change.version ∧
    ∀ key ∈ keys, key ∈ change.deleted

/-- How the transaction of a writer ends. -/
def Transacted (i : Nat) (expected : Reservation → Prop) :
    Except StoreError Reservation → ServerState → Prop
  | .ok r, s => expected r ∧ Deleting i r.flightID (fun _ => True) [] s
  | .error _, s => s.changes i = none

theorem onStore_query {α : Type} {statement : Statement}
    {next : Result statement → Program Statement Answer StoreError α} :
    onStore (query statement >>= next) = .step (.db statement) fun answer =>
      onStore (returnError answer >>= next) := rfl

theorem transactionLogic_cache (expected : Reservation → Prop) :
    TransactionLogic i ServerState.store (fun s => CacheInv ids rows₀ ok s ∧ Starting i s)
      expected (fun _ => True) (fun program =>
        (coherence ids rows₀ ok).Safe (service ids) request i (Transacted i expected)
          (onStore program)) where
  consistent s hs := hs.1.consistent
  tables s hs := hs.1.tables
  tolerates _ _ := trivial
  taken _ _ _ _ _ _ _ _ _ := trivial
  returned _ _ _ _ _ _ _ _ _ := trivial
  fail s _ hs _ := hs.2.changes
  query {statement pre} middle next hkept hcommit hexec hnext s hs hpre := by
    have htriple : (coherence ids rows₀ ok).Triple (service ids) request i
        (fun s => Starting i s ∧ pre s.store) (.step (.db statement) fun answer =>
          onStore (returnError answer >>= next)) (Transacted i expected) := by
      refine Discipline.Triple.step (fun answer s => s.changes i = none ∧
        ∀ result, answer = .ok result → Starting i s ∧ middle result s.store) ?_ ?_ ?_
      · rintro s s' _ hrely ⟨hstarting, hpre⟩
        exact ⟨⟨hrely.changes.trans hstarting.changes, hrely.unread.trans hstarting.unread⟩,
          hkept _ _ hrely.store hpre⟩
      · rintro s hinv ⟨hstarting, hpre⟩
        refine ⟨trivial, fun _ choice answer s' hrun => ?_⟩
        have hexecuted := executed_of_exec hinv.consistent hcommit hrun
        refine ⟨hexecuted.inv hinv, hexecuted.untouched, ?_, fun result hanswer => ?_⟩
        · rw [hexecuted.changes]
          exact hstarting.changes
        · subst hanswer
          rcases hexecuted.how with ⟨herror, _⟩ | ⟨generated, hproceed, hunread⟩
          · cases herror
          · refine ⟨⟨?_, ?_⟩, hexec s generated _ _ ⟨hinv, hstarting⟩ hpre hproceed⟩
            · rw [hexecuted.changes]
              exact hstarting.changes
            · rw [hunread]
              exact hstarting.unread
      · intro answer
        cases answer with
        | ok result =>
            rintro s hinv ⟨_, hmiddle⟩
            obtain ⟨hstarting, hresult⟩ := hmiddle result rfl
            exact hnext result s ⟨hinv, hstarting⟩ hresult
        | error error => exact fun s _ hmiddle => hmiddle.1
    exact htriple s hs.1 ⟨hs.2, hpre⟩
  commit {pre value} hkept hexpected hwritten s hs hpre := by
    have htriple : (coherence ids rows₀ ok).Triple (service ids) request i
        (fun s => Starting i s ∧ pre s.store) (.step (.db .commit) fun answer =>
          onStore (returnError answer >>= fun _ => .ret value)) (Transacted i expected) := by
      refine Discipline.Triple.step (fun answer s => (∀ done, answer = .ok done →
          Deleting i value.flightID (fun _ => True) [] s) ∧
        ∀ error, answer = .error error → s.changes i = none) ?_ ?_ ?_
      · rintro s s' _ hrely ⟨hstarting, hpre⟩
        exact ⟨⟨hrely.changes.trans hstarting.changes, hrely.unread.trans hstarting.unread⟩,
          hkept _ _ hrely.store hpre⟩
      · rintro s hinv ⟨hstarting, hpre⟩
        refine ⟨trivial, fun _ choice answer s' hrun => ?_⟩
        cases choice with
        | failure =>
            simp only [service, exec, ServerState.failed, Option.some.injEq, Prod.mk.injEq] at hrun
            obtain ⟨rfl, rfl⟩ := hrun
            exact ⟨hinv, fun j _ => Untouched.refl j s, (fun _ hdone => by cases hdone),
              fun _ _ => hstarting.changes⟩
        | proceed generated =>
            simp only [service, exec, proceed, Option.map_some, Option.some.injEq,
              Prod.mk.injEq] at hrun
            obtain ⟨rfl, rfl⟩ := hrun
            obtain ⟨hinv', version, hchange⟩ := hinv.commit (hwritten s.store hpre)
            refine ⟨hinv', fun j hij => ⟨RowStore.commit_keeps hij hinv.consistent, ?_, rfl⟩,
              fun _ _ => ⟨RowStore.finish_idle _ _ _, hstarting.unread, _, hchange, rfl, trivial,
                fun _ hkey => by cases hkey⟩, fun _ herror => by cases herror⟩
            exact Function.update_of_ne hij.symm _ _
      · intro answer
        cases answer with
        | ok done => exact fun s _ hended => ⟨hexpected, hended.1 done rfl⟩
        | error error => exact fun s _ hended => hended.2 error rfl
    exact htriple s hs.1 ⟨hs.2, hpre⟩

/-! ## What a writer does to the cache -/

section Writer

variable {id : Uuid} {bound : Int → Prop} {keys : List CacheKey}
  {post : Except RpcError β → ServerState → Prop}

theorem Deleting.of_untouched (h : Deleting i id bound keys s) (hrely : Untouched i s s') :
    Deleting i id bound keys s' where
  idle := hrely.store.idle h.idle
  unread := hrely.unread.trans h.unread
  change := by
    rw [hrely.changes]
    exact h.change

theorem triple_del {key : CacheKey} {next : Unit → CacheProgram RpcError β}
    (hnext : ok request → (coherence ids rows₀ ok).Triple (service ids) request i
      (Deleting i id bound (key :: keys)) (next ()) post) :
    (coherence ids rows₀ ok).Triple (service ids) request i (Deleting i id bound keys)
      (command (.del key) >>= next) post := by
  refine Discipline.Triple.step (fun _ s => ok request ∧ Deleting i id bound (key :: keys) s)
    (fun s s' _ hrely h => h.of_untouched hrely) ?_ fun _ => .pure hnext
  rintro s hinv ⟨hidle, hunread, change, hchange, hitem, hversion, hkeys⟩
  refine ⟨trivial, fun hpermitted choice answer s' hrun => ?_⟩
  simp only [service, exec, ServerState.del, hchange, Option.map_some, Option.some.injEq,
    Prod.mk.injEq, true_and] at hrun
  subst hrun
  refine ⟨hinv.records hchange rfl rfl (fun k payload hk => (Cache.payload_delete hk).2)
    (hinv.coherent.deleted hchange key), fun j hij => untouched_changes hij _ _,
    hpermitted.1, hidle, hunread, _, Function.update_self _ _ _, hitem, hversion, ?_⟩
  intro key' hkey'
  rcases List.mem_cons.mp hkey' with rfl | hmem
  · exact List.mem_cons_self
  · exact List.mem_cons_of_mem _ (hkeys key' hmem)

theorem triple_setVersion {key : CacheKey} {version : Int}
    {next : Unit → CacheProgram RpcError β}
    (hnext : (coherence ids rows₀ ok).Triple (service ids) request i
      (Deleting i id (· ≤ version) keys) (next ()) post) :
    (coherence ids rows₀ ok).Triple (service ids) request i (Deleting i id (· ≤ version) keys)
      (command (.setVersionIfNewer key version) >>= next) post := by
  refine Discipline.Triple.step (fun _ => Deleting i id (· ≤ version) keys)
    (fun s s' _ hrely h => h.of_untouched hrely) ?_ fun _ => hnext
  rintro s hinv ⟨hidle, hunread, change, hchange, hitem, hversion, hkeys⟩
  refine ⟨⟨change, hchange, hversion⟩, fun _ choice answer s' hrun => ?_⟩
  simp only [service, exec, ServerState.setVersionIfNewer, hchange, Option.map_some,
    Option.some.injEq, Prod.mk.injEq, true_and] at hrun
  subst hrun
  refine ⟨hinv.records hchange rfl rfl (fun k payload hk => ?_)
    (hinv.coherent.versionSet hchange key hversion), fun j hij => untouched_changes hij _ _,
    hidle, hunread, _, Function.update_self _ _ _, hitem, hversion, hkeys⟩
  rw [Cache.payload_setVersionIfNewer] at hk
  exact hk

/-- The writer cannot read the flight again. -/
structure Unread (i : Nat) (id : Uuid) (keys : List CacheKey) (s : ServerState) : Prop where
  unread : s.unread i = true
  change : ∃ change, s.changes i = some change ∧ change.item = id ∧
    ∀ key ∈ keys, key ∈ change.deleted

/-- The row that a writer reads again is at its version or a later one. -/
def Reread (rows₀ : Rows) (i : Nat) (id : Uuid) (keys : List CacheKey) :
    Except StoreError Flight → ServerState → Prop
  | .ok row, s => (∃ row₀, rows₀.lookup (.flight id) = some row₀ ∧
      fixedColumns row = fixedColumns row₀) ∧ Deleting i id (· ≤ row.version) keys s
  | .error _, s => Unread i id keys s

/-- The answer to the statement that reads the flight again. -/
def Reselected (rows₀ : Rows) (i : Nat) (id : Uuid) (keys : List CacheKey) :
    Except DbError (Option Flight) → ServerState → Prop
  | .ok (some row), s => Reread rows₀ i id keys (.ok row) s
  | .ok none, _ => False
  | .error _, s => Unread i id keys s

theorem triple_reread {next : Except StoreError Flight → CacheProgram RpcError β}
    (hfound : ∀ row row₀, rows₀.lookup (.flight id) = some row₀ →
      fixedColumns row = fixedColumns row₀ →
      (coherence ids rows₀ ok).Triple (service ids) request i
        (Deleting i id (· ≤ row.version) keys) (next (.ok row)) post)
    (hfailed : ∀ error, (coherence ids rows₀ ok).Triple (service ids) request i
      (Unread i id keys) (next (.error error)) post) :
    (coherence ids rows₀ ok).Triple (service ids) request i
      (Deleting i id (fun _ => True) keys)
      ((onStore (Store.getFlight id)).attempt >>= next) post := by
  refine Discipline.Triple.attempt_bind (Reread rows₀ i id keys) ?_ fun outcome => ?_
  · rw [Store.getFlight, onStore_query]
    refine Discipline.Triple.step (Reselected rows₀ i id keys)
      (fun s s' _ hrely h => h.of_untouched hrely) ?_ ?_
    · rintro s hinv ⟨hidle, hunread, change, hchange, hitem, _, hkeys⟩
      refine ⟨trivial, fun _ choice answer s' hrun => ?_⟩
      have hexecuted := executed_of_exec hinv.consistent (by simp) hrun
      refine ⟨hexecuted.inv hinv, hexecuted.untouched, ?_⟩
      rcases hexecuted.how with ⟨rfl, _, hread⟩ | ⟨generated, hproceed, hsame⟩
      · rcases hread with hother | hread
        · exact absurd rfl (hother id)
        · exact ⟨hread, change, by rw [hexecuted.changes, hchange], hitem, hkeys⟩
      · simp only [proceed, Option.some.injEq, Prod.mk.injEq] at hproceed
        obtain ⟨rfl, hstore⟩ := hproceed
        obtain ⟨row, hrow, hle⟩ := hinv.committed i change hchange
        rw [hitem] at hrow
        rw [read_of_pending_empty hidle.pending, hrow]
        refine ⟨hinv.columns id row hrow, by rw [← hstore]; exact hidle,
          by rw [hsame, hunread],
          change, by rw [hexecuted.changes, hchange], hitem, hle, hkeys⟩
    · intro answer
      cases answer with
      | error error => exact fun s _ h => h
      | ok found =>
          cases found with
          | none => exact fun s _ h => False.elim h
          | some row => exact fun s _ h => h
  · cases outcome with
    | error error => exact hfailed error
    | ok row =>
        rintro s hinv ⟨⟨row₀, hrow₀, hcolumns⟩, hdeleting⟩
        exact hfound row row₀ hrow₀ hcolumns s hinv hdeleting

/-- What a writer has told the cache. -/
theorem triple_invalidate {text : String} (hdeletes : request.deletes ids id text) :
    (coherence ids rows₀ ok).Triple (service ids) request i
      (Deleting i id (fun _ => True) []) (invalidate ids true text id)
      (fun _ => Answered ids rows₀ ok request i) := by
  simp only [invalidate, if_true]
  refine triple_del fun hok => ?_
  refine triple_reread (fun row row₀ hrow₀ hcolumns => ?_) fun error => ?_
  · refine triple_del fun _ => triple_del fun _ => ?_
    refine triple_setVersion (triple_setVersion ?_)
    show (coherence ids rows₀ ok).Triple (service ids) request i _ (command _ >>= .ret) _
    refine triple_setVersion ?_
    rintro s _ ⟨_, _, change, hchange, rfl, _, hkeys⟩ change' hchange'
    obtain rfl := Option.some.inj (hchange.symm.trans hchange')
    refine ⟨hok, ⟨text, hkeys _ (by simp), hdeletes⟩, fun _ => ⟨row₀, hrow₀, ?_⟩⟩
    rw [← listKeys_congr hcolumns]
    intro key hkey
    refine hkeys key ?_
    simp only [listKeys, List.mem_cons, List.not_mem_nil, or_false] at hkey
    rcases hkey with rfl | rfl
    · simp
    · simp
  · rintro s _ ⟨hunread, change, hchange, rfl, hkeys⟩ change' hchange'
    obtain rfl := Option.some.inj (hchange.symm.trans hchange')
    refine ⟨hok, ⟨text, hkeys _ (by simp), hdeletes⟩, fun hread => ?_⟩
    rw [hunread] at hread
    cases hread

end Writer

/-! ## What a reader does to the cache -/

section Reader

variable {post : Except RpcError β → ServerState → Prop}

/-- A request that has changed nothing. -/
def Reading (i : Nat) (s : ServerState) : Prop := s.changes i = none

theorem Reading.of_untouched (h : Reading i s) (hrely : Untouched i s s') : Reading i s' :=
  hrely.changes.trans h

theorem triple_get {key : CacheKey} {next : Option Payload → CacheProgram RpcError β}
    (hnext : ∀ payload, (coherence ids rows₀ ok).Triple (service ids) request i (Reading i)
      (next payload) post) :
    (coherence ids rows₀ ok).Triple (service ids) request i (Reading i)
      (command (.get key) >>= next) post := by
  refine Discipline.Triple.step (fun _ => Reading i) (fun s s' _ hrely h => h.of_untouched hrely)
    ?_ hnext
  refine fun s hinv hreading => ⟨trivial, fun _ choice answer s' hrun => ?_⟩
  simp only [service, exec, Option.some.injEq, Prod.mk.injEq] at hrun
  obtain ⟨rfl, rfl⟩ := hrun
  exact ⟨hinv, fun j _ => Untouched.refl j s, hreading⟩

theorem triple_getCached (key : CacheKey) :
    (coherence ids rows₀ ok).Triple (service ids) request i (Reading i) (getCached true key)
      (fun _ => Reading i) := by
  simp only [getCached, if_true]
  refine triple_get fun payload => ?_
  rcases payload with _ | ⟨f⟩ | ⟨fs⟩ <;> exact fun s _ h => h

theorem triple_getSearch (key : CacheKey) :
    (coherence ids rows₀ ok).Triple (service ids) request i (Reading i) (getSearch true key)
      (fun _ => Reading i) := by
  simp only [getSearch, if_true]
  refine triple_get fun payload => ?_
  rcases payload with _ | ⟨f⟩ | ⟨fs⟩ <;> exact fun s _ h => h

/-- A fill that comes in time. -/
theorem triple_fill {key : CacheKey} {version : Int} {payload : Payload}
    {next : Unit → CacheProgram RpcError β}
    (hversion : ∀ s, Versioned i s (.setIfNewer key version payload))
    (hnamed : ∀ text, key = flightKey text → ∃ f, payload = .flight f ∧
      ids.parse text = some f.id)
    (hsearched : ok request → ∀ name, key = .search name → ∃ fs, payload = .flights fs ∧
      ∀ f ∈ fs, ∃ (req : SearchFlightsRequest) (row₀ : Flight), ok (.searchFlights req) ∧
        req.key = .search name ∧ rows₀.lookup (.flight f.id) = some row₀ ∧
          req.lists row₀ = true)
    (hnext : (coherence ids rows₀ ok).Triple (service ids) request i (Reading i) (next ()) post) :
    (coherence ids rows₀ ok).Triple (service ids) request i (Reading i)
      (command (.setIfNewer key version payload) >>= next) post := by
  refine Discipline.Triple.step (fun _ => Reading i) (fun s s' _ hrely h => h.of_untouched hrely)
    ?_ fun _ => hnext
  refine fun s hinv hreading => ⟨hversion s, fun hpermitted choice answer s' hrun => ?_⟩
  obtain ⟨hok, htime⟩ := hpermitted
  simp only [service, exec, Option.some.injEq, Prod.mk.injEq, true_and] at hrun
  subst hrun
  refine ⟨{ hinv with
      coherent := hinv.coherent.setIfNewer htime
      named := fun text stored hstored => ?_
      searched := fun name stored hstored => ?_ },
    fun j _ => ⟨RowStore.Keeps.refl j s.store.db, rfl, rfl⟩, hreading⟩
  · rcases Cache.payload_setIfNewer hstored with hold | ⟨_, hkey, rfl⟩
    · exact hinv.named text stored hold
    · exact hnamed text hkey.symm
  · rcases Cache.payload_setIfNewer hstored with hold | ⟨_, hkey, rfl⟩
    · exact hinv.searched name stored hold
    · exact hsearched hok name hkey.symm

theorem triple_parseId {pre : ServerState → Prop} {text : String} {error : RpcError}
    {next : Uuid → CacheProgram RpcError β}
    (hfail : ∀ s, pre s → post (.error error) s)
    (hnext : ∀ id, ids.parse text = some id →
      (coherence ids rows₀ ok).Triple (service ids) request i pre (next id) post) :
    (coherence ids rows₀ ok).Triple (service ids) request i pre
      (parseId ids text error >>= next) post := by
  unfold parseId
  cases hparse : ids.parse text with
  | none => exact fun s _ hpre => hfail s hpre
  | some id => exact hnext id hparse

theorem triple_readFlight (id : Uuid) :
    (coherence ids rows₀ ok).Triple (service ids) request i (Reading i)
      (onStore (Store.getFlight id)) (fun _ => Reading i) := by
  rw [Store.getFlight, onStore_query]
  refine Discipline.Triple.step (fun _ => Reading i) (fun s s' _ hrely h => h.of_untouched hrely)
    ?_ ?_
  · refine fun s hinv hreading => ⟨trivial, fun _ choice answer s' hrun => ?_⟩
    have hexecuted := executed_of_exec hinv.consistent (by simp) hrun
    refine ⟨hexecuted.inv hinv, hexecuted.untouched, ?_⟩
    exact (congrFun hexecuted.changes i).trans hreading
  · intro answer
    cases answer with
    | error error => exact fun s _ h => h
    | ok found =>
        cases found with
        | none => exact fun s _ h => h
        | some row => exact fun s _ h => h

theorem triple_getFlight (flightId : String) :
    (coherence ids rows₀ ok).Triple (service ids) request i (Reading i)
      (getFlight ids true flightId) (fun _ => Reading i) := by
  refine Discipline.Triple.raiseIf (fun _ s _ h => h) fun _ => ?_
  refine triple_parseId (fun s h => h) fun id hparse => ?_
  refine Discipline.Triple.bind (fun _ => Reading i) (triple_getCached _) (fun found => ?_)
    fun _ s _ h => h
  cases found with
  | some f => exact fun s _ h => h
  | none =>
      refine Discipline.Triple.attempt_bind (fun _ => Reading i) (triple_readFlight id)
        fun outcome => ?_
      cases outcome with
      | error error => exact fun s _ h => h
      | ok row =>
          refine triple_fill (fun _ => rfl) (fun text hkey => ?_) (fun _ name hkey => ?_)
            fun s _ h => h
          · obtain rfl := CacheKey.flight.inj hkey
            exact ⟨⟨id, row⟩, rfl, hparse⟩
          · cases hkey

theorem triple_searchFlights (req : SearchFlightsRequest) :
    (coherence ids rows₀ ok).Triple (service ids) (.searchFlights req) i (Reading i)
      (searchFlights ids true req) (fun _ => Reading i) := by
  refine Discipline.Triple.raiseIf (fun _ s _ h => h) fun _ => ?_
  refine Discipline.Triple.bind (fun _ => Reading i) (triple_getSearch _) (fun found => ?_)
    fun _ s _ h => h
  cases found with
  | some fs => exact fun s _ h => h
  | none =>
      refine Discipline.Triple.step (fun answer s => (∀ fs, answer = .ok fs →
          ∀ f ∈ fs, ∃ row₀ : Flight, rows₀.lookup (.flight f.id) = some row₀ ∧
            req.lists row₀ = true) ∧ Reading i s)
        (fun s s' _ hrely h => h.of_untouched hrely) ?_ ?_
      · refine fun s hinv hreading => ⟨trivial, fun _ choice answer s' hrun => ?_⟩
        cases choice with
        | failure =>
            simp only [service, exec, Option.some.injEq, Prod.mk.injEq] at hrun
            obtain ⟨rfl, rfl⟩ := hrun
            exact ⟨hinv, fun j _ => Untouched.refl j s, (fun fs hfs => by cases hfs), hreading⟩
        | proceed generated =>
            simp only [service, exec, Option.some.injEq, Prod.mk.injEq] at hrun
            obtain ⟨rfl, rfl⟩ := hrun
            refine ⟨hinv, fun j _ => Untouched.refl j s, fun fs hfs f hf => ?_, hreading⟩
            obtain rfl := Except.ok.inj hfs
            obtain ⟨hrow, hselects⟩ := mem_searchRows.mp hf
            obtain ⟨row₀, hrow₀, hcolumns⟩ := hinv.columns f.id f.row hrow
            exact ⟨row₀, hrow₀, by rw [← lists_congr hcolumns]; exact hselects⟩
      · intro answer
        refine .pure fun hfound => ?_
        cases answer with
        | error error => exact fun s _ h => h
        | ok fs =>
            refine triple_fill (fun _ => rfl) (fun text hkey => ?_) (fun hok name hkey => ?_)
              fun s _ h => h
            · cases hkey
            · refine ⟨fs, rfl, fun f hf => ?_⟩
              obtain ⟨row₀, hrow₀, hlists⟩ := hfound fs rfl f hf
              exact ⟨req, row₀, hok, hkey, hrow₀, hlists⟩

end Reader

/-! ## The methods -/

theorem answered_of_none (h : s.changes i = none) : Answered ids rows₀ ok request i s := by
  intro change hchange
  rw [h] at hchange
  cases hchange

/-- A writer: its transaction, and then the cache. -/
theorem triple_writer (expected : Reservation → Prop)
    {program : Program Statement Answer StoreError Reservation}
    {onError : StoreError → RpcError} {text : Reservation → String} {id : Reservation → Uuid}
    (hprogram : ∀ s, CacheInv ids rows₀ ok s ∧ Starting i s → s.store.db.Idle i →
      (coherence ids rows₀ ok).Safe (service ids) request i (Transacted i expected)
        (onStore program) s)
    (hid : ∀ r, expected r → id r = r.flightID)
    (hdeletes : ∀ r, request.deletes ids (id r) (text r)) :
    (coherence ids rows₀ ok).Triple (service ids) request i
      (fun s => s.store.db.Idle i ∧ Starting i s)
      ((onStore program).attempt >>= fun outcome => match outcome with
        | .error error => .fail (onError error)
        | .ok r => do
            invalidate ids true (text r) (id r)
            return r)
      (fun _ => Answered ids rows₀ ok request i) := by
  refine Discipline.Triple.attempt_bind (Transacted i expected)
    (fun s hinv ⟨hidle, hstarting⟩ => hprogram s ⟨hinv, hstarting⟩ hidle) fun outcome => ?_
  cases outcome with
  | error error => exact fun s _ hended => answered_of_none hended
  | ok r =>
      refine Discipline.Triple.pure fun hexpected => ?_
      refine Discipline.Triple.bind (fun _ => Answered ids rows₀ ok request i) ?_
        (fun _ s _ h => h) fun _ s _ h => h
      rw [← hid r hexpected]
      exact triple_invalidate (hdeletes r)

theorem triple_reserveSeats (flightId bookingId : String) (seatCount : Int) :
    (coherence ids rows₀ ok).Triple (service ids) (.reserveSeats flightId bookingId seatCount) i
      (fun s => s.store.db.Idle i ∧ Starting i s)
      (reserveSeats ids true flightId bookingId seatCount)
      (fun _ => Answered ids rows₀ ok (.reserveSeats flightId bookingId seatCount) i) := by
  refine Discipline.Triple.raiseIf (fun _ s _ h => answered_of_none h.2.changes) fun _ => ?_
  refine triple_parseId (fun s h => answered_of_none h.2.changes) fun id hid => ?_
  refine triple_parseId (fun s h => answered_of_none h.2.changes) fun bookingID _ => ?_
  refine Discipline.Triple.raiseIf (fun _ s _ h => answered_of_none h.2.changes) fun hcount => ?_
  have hpositive : 0 < seatCount := by simpa using hcount
  exact triple_writer (fun r => id = r.flightID)
    ((transactionLogic_cache _).reserveSeats id bookingID hpositive rfl)
    (fun r hr => hr) fun r => ⟨rfl, hid⟩

theorem triple_releaseReservation (bookingId : String) :
    (coherence ids rows₀ ok).Triple (service ids) (.releaseReservation bookingId) i
      (fun s => s.store.db.Idle i ∧ Starting i s) (releaseReservation ids true bookingId)
      (fun _ => Answered ids rows₀ ok (.releaseReservation bookingId) i) := by
  refine Discipline.Triple.raiseIf (fun _ s _ h => answered_of_none h.2.changes) fun _ => ?_
  refine triple_parseId (fun s h => answered_of_none h.2.changes) fun bookingID _ => ?_
  exact triple_writer (fun _ => True)
    ((transactionLogic_cache _).releaseReservation bookingID fun _ => trivial)
    (fun r _ => rfl) fun r => rfl

theorem sound : (coherence ids rows₀ ok).Sound (service ids) where
  rely_refl _ i s := Untouched.refl i s
  rely_trans _ _ _ _ _ h h' := h.trans h'
  guarantee_rely _ _ _ j _ _ hij _ _ h := h j hij
  guarantee_unused _ _ j _ _ hij h hunused :=
    ⟨(h j hij).store.idle hunused.1, (h j hij).changes.trans hunused.2.changes,
      (h j hij).unread.trans hunused.2.unread⟩
  guarantee_answer _ _ _ j _ _ _ hij _ h hanswer := by
    intro change hchange
    rw [(h j hij).changes] at hchange
    rw [(h j hij).unread]
    exact hanswer change hchange
  close_inv i s h := ⟨RowStore.rollback_consistent i h.consistent, h.tables, h.columns,
    h.committed, h.coherent, h.named, h.searched⟩
  close_guarantee _ i s _ j hij := ⟨RowStore.rollback_keeps hij, rfl, rfl⟩
  close_answer _ _ _ _ _ h := h
  answer_stable _ i _ s s' _ hrely hanswer := by
    intro change hchange
    rw [hrely.changes] at hchange
    rw [hrely.unread]
    exact hanswer change hchange
  outside_inv change := change.elim
  outside_rely change := change.elim
  outside_unused change := change.elim
  handler_safe request i := by
    have hreader : ∀ {α : Type} {program : CacheProgram RpcError α} {f : α → Response},
        (coherence ids rows₀ ok).Triple (service ids) request i (Reading i) program
          (fun _ => Reading i) →
        (coherence ids rows₀ ok).Triple (service ids) request i
          ((coherence ids rows₀ ok).unused i) (program >>= fun value => .ret (f value))
          ((coherence ids rows₀ ok).answer request i) := by
      intro α program f h
      refine Discipline.Triple.bind (fun _ => Reading i) (h.weaken _ fun s _ hs => hs.2.changes)
        (fun _ s _ hs => answered_of_none hs) fun _ s _ hs => answered_of_none hs
    have hwriter : ∀ {program : CacheProgram RpcError Reservation},
        (coherence ids rows₀ ok).Triple (service ids) request i
          (fun s => s.store.db.Idle i ∧ Starting i s) program
          (fun _ => Answered ids rows₀ ok request i) →
        (coherence ids rows₀ ok).Triple (service ids) request i
          ((coherence ids rows₀ ok).unused i)
          (program >>= fun value => .ret (Response.reservation value))
          ((coherence ids rows₀ ok).answer request i) := by
      intro program h
      exact Discipline.Triple.bind (fun _ => Answered ids rows₀ ok request i) h
        (fun _ s _ hs => hs) fun _ s _ hs => hs
    cases request with
    | searchFlights req => exact hreader (triple_searchFlights req)
    | getFlight flightId => exact hreader (triple_getFlight flightId)
    | reserveSeats flightId bookingId seatCount =>
        exact hwriter (triple_reserveSeats flightId bookingId seatCount)
    | releaseReservation bookingId => exact hwriter (triple_releaseReservation bookingId)

theorem holds_ofRows (h : Tables rows₀) :
    (coherence ids rows₀ ok).Holds (service ids) (Pool.initial (ServerState.ofRows rows₀)) := by
  refine Discipline.holds_initial ⟨h.consistent, h, fun id row hrow => ⟨row, hrow, rfl⟩,
    fun i change hchange => ?_, coherent_empty, fun text payload hpayload => ?_,
    fun key payload hpayload => ?_⟩ fun i => ⟨RowStore.idle_ofRows rows₀ i, rfl, rfl⟩
  · cases hchange
  · cases hpayload
  · cases hpayload

/-! ## Runs -/

/-- No writer is between the deletion of the key and the setting of its
    version, or has set a version that does not exceed the fill's, while the
    payload shows its flight older than its change. -/
def inTime (s : ServerState) (requests : Nat) (key : CacheKey) (version : Int)
    (payload : Payload) : Bool :=
  !s.redis.admits key version || (List.range requests).all fun j =>
    match s.changes j with
    | none => true
    | some change => !decide (key ∈ change.deleted) ||
        payload.rows.all (fun f => !decide (f.id = change.item) ||
          decide (change.version ≤ f.row.version)) ||
        (decide (key ∈ change.announced) && decide (version < change.version))

/-- A fill comes in time. -/
def fillsInTime (pool : CachePool) : CacheEvent → Bool
  | .step i _ =>
      match pool.program? i with
      | some (.step (.setIfNewer key version payload) _) =>
          inTime pool.shared pool.threads.length key version payload
      | _ => true
  | _ => true

def isWriter : Request → Bool
  | .reserveSeats _ _ _ => true
  | .releaseReservation _ => true
  | _ => false

/-- A writer's reading of the flight after its commit does not fail. -/
def readsAgain (pool : CachePool) : CacheEvent → Bool
  | .step i .failure =>
      match pool.threads[i]? with
      | some ⟨request, .running (.step (.db (.selectFlight _)) _)⟩ => !isWriter request
      | _ => true
  | _ => true

def starts (ok : Request → Bool) : CacheEvent → Bool
  | .start request => ok request
  | _ => true

/-- The flight is written as the database gives it out. -/
def canonical (ids : UuidText) : Request → Bool
  | .getFlight flightId => (ids.parse flightId).all fun id => ids.text id = flightId
  | .reserveSeats flightId _ _ => (ids.parse flightId).all fun id => ids.text id = flightId
  | _ => true

/-- The route is written as in the rows of the flights that the search lists. -/
def spelled (rows : Rows) : Request → Bool
  | .searchFlights req => rows.entries.all fun
      | ⟨.flight _, row⟩ => !req.lists row ||
          (decide (req.origin = row.origin) && decide (req.destination = row.destination))
      | ⟨.reservation _, _⟩ => true
  | _ => true

def start (rows : Rows) : CachePool := Pool.initial (ServerState.ofRows rows)

theorem inTime_iff_check {requests : Nat} {key : CacheKey} {version : Int} {payload : Payload}
    (hunused : ∀ j, requests ≤ j → s.changes j = none) :
    inTime s requests key version payload = true ↔
      InTime Payload.shows s.redis s.changes key version payload := by
  simp only [inTime, Bool.or_eq_true, Bool.not_eq_true', List.all_eq_true, List.mem_range]
  constructor
  · intro h hadmits j change hchange hdeleted n hshows hlt
    have hj : j < requests := by
      by_contra hle
      rw [hunused j (Nat.not_lt.mp hle)] at hchange
      cases hchange
    have hthis := (h.resolve_left (by simp [hadmits])) j hj
    simp only [hchange, hdeleted, decide_true, Bool.not_true, Bool.false_or, Bool.or_eq_true,
      Bool.and_eq_true, decide_eq_true_eq] at hthis
    rcases hthis with hall | hset
    · obtain ⟨f, hf, hid, hversion⟩ := hshows
      have hthat := List.all_eq_true.mp hall f hf
      simp only [hid, decide_true, Bool.not_true, Bool.false_or, decide_eq_true_eq] at hthat
      omega
    · exact hset
  · intro htime
    by_cases hadmits : s.redis.admits key version = true
    · refine Or.inr fun j _ => ?_
      cases hchange : s.changes j with
      | none => rfl
      | some change =>
          by_cases hdeleted : key ∈ change.deleted
          · by_cases hstale : ∃ n, payload.shows change.item n ∧ n < change.version
            · obtain ⟨n, hshows, hlt⟩ := hstale
              simp [htime hadmits j change hchange hdeleted n hshows hlt]
            · have hall : payload.rows.all (fun f => !decide (f.id = change.item) ||
                  decide (change.version ≤ f.row.version)) = true := by
                refine List.all_eq_true.mpr fun f hf => ?_
                by_cases hid : f.id = change.item
                · have hle : change.version ≤ f.row.version :=
                    Int.not_lt.mp fun hlt => hstale ⟨_, ⟨f, hf, hid, rfl⟩, hlt⟩
                  simp [hle]
                · simp [hid]
              simp [hall]
          · simp [hdeleted]
    · exact Or.inl (Bool.eq_false_iff.mpr hadmits)

/-- What holds along a run: the discipline, and that every request meets `ok`. -/
structure Coherently (ids : UuidText) (rows₀ : Rows) (ok : Request → Prop) (pool : CachePool) :
    Prop where
  holds : (coherence ids rows₀ ok).Holds (service ids) pool
  requests : ∀ (j : Nat) (thread : Thread Command Reply RpcError Response Request),
    pool.threads[j]? = some thread → ok thread.request

theorem coherently_next {pool final : CachePool} {event : CacheEvent}
    (h : Coherently ids rows₀ ok pool) (hstart : ∀ request, event = .start request → ok request)
    (hfills : fillsInTime pool event = true)
    (hnext : (service ids).next pool event = some final) : Coherently ids rows₀ ok final where
  holds := by
    refine Discipline.holds_next sound h.holds ?_ hnext
    cases event with
    | start request => exact fun _ _ _ _ => ⟨trivial, trivial⟩
    | step i choice =>
        intro request command next hruns
        refine ⟨h.requests i _ hruns, ?_⟩
        cases command with
        | setIfNewer key version payload =>
            have hprogram := Service.program?_eq_some.mpr ⟨request, hruns⟩
            simp only [fillsInTime, hprogram] at hfills
            exact (inTime_iff_check fun j hj => (h.holds.unused j hj).2.changes).mp hfills
        | _ => trivial
    | stop i => trivial
    | outside change => trivial
  requests j thread hj := by
    rcases Service.thread_of_next hnext hj with ⟨before, hbefore, hsame⟩ | ⟨hevent, _⟩
    · exact hsame ▸ h.requests j before hbefore
    · exact hstart _ hevent

theorem coherently_start (h : Tables rows₀) : Coherently ids rows₀ ok (start rows₀) :=
  ⟨holds_ofRows h, fun j thread hj => by cases hj⟩

section Fills

variable {pool : CachePool} {request : Request} {key : CacheKey} {version : Int}
  {payload : Payload} {next : Unit → CacheProgram RpcError Response}

/-- A fill comes in time if it is not admitted, or shows every change whose writer has
    deleted the payload already. -/
theorem fillsInTime_iff (h : (coherence ids rows₀ ok).Holds (service ids) pool)
    (hruns : pool.Runs i request (.step (.setIfNewer key version payload) next))
    (choice : Choice) :
    fillsInTime pool (.step i choice) = true ↔
      (pool.shared.redis.admits key version = true → ∀ j change,
        pool.shared.changes j = some change → key ∈ change.deleted →
          ∀ n, payload.shows change.item n → change.version ≤ n) := by
  rw [← h.inv.coherent.inTime_iff]
  simp only [fillsInTime, Service.program?_eq_some.mpr ⟨request, hruns⟩]
  exact inTime_iff_check fun j hj => (h.unused j hj).2.changes

/-- The fill of one flight is late only between the deletion of a newer change's writer and
    its setting of the version. -/
theorem fillsInTime_flight_iff (h : (coherence ids rows₀ ok).Holds (service ids) pool)
    {f : FlightRow} (hruns : pool.Runs i request (.step (.setIfNewer key version (.flight f)) next))
    (choice : Choice) :
    fillsInTime pool (.step i choice) = true ↔
      (pool.shared.redis.admits key version = true → ∀ j change,
        pool.shared.changes j = some change → key ∈ change.deleted → key ∉ change.announced →
          f.id = change.item → change.version ≤ f.row.version) := by
  have hversion : version = f.row.version := h.known sound hruns
  have hown : ∀ id n, (Payload.flight f).shows id n → n = version := by
    rintro id n ⟨f', hf', _, rfl⟩
    rw [hversion, List.mem_singleton.mp hf']
  rw [fillsInTime_iff h hruns, ← h.inv.coherent.inTime_iff,
    h.inv.coherent.inTime_iff_between hown]
  constructor
  · intro hbetween hadmits j change hj hdeleted hannounced hid
    exact hbetween hadmits j change hj hdeleted hannounced _
      ⟨f, List.mem_singleton.mpr rfl, hid, rfl⟩
  · rintro hbetween hadmits j change hj hdeleted hannounced n ⟨f', hf', hid, rfl⟩
    obtain rfl := List.mem_singleton.mp hf'
    exact hbetween hadmits j change hj hdeleted hannounced hid

/-- A list is filled with the largest version of its flights. -/
theorem fill_version (h : (coherence ids rows₀ ok).Holds (service ids) pool)
    {fs : List FlightRow}
    (hruns : pool.Runs i request (.step (.setIfNewer key version (.flights fs)) next)) :
    (∀ f ∈ fs, f.row.version ≤ version) ∧
      (version = 0 ∨ ∃ f ∈ fs, f.row.version = version) := by
  have hversion : version = maxVersion fs := h.known sound hruns
  rw [hversion]
  exact maxVersion_spec fs

/-- A writer sets the version of its own change, or of a later one of the flight. -/
theorem announced_version (h : (coherence ids rows₀ ok).Holds (service ids) pool)
    (hruns : pool.Runs i request (.step (.setVersionIfNewer key version) next)) :
    ∃ change, pool.shared.changes i = some change ∧ change.version ≤ version :=
  h.known sound hruns

end Fills

/-- Where requests write flights as the database does and fills come in time,
    GetFlight never finds a flight older than an answered change of it. -/
theorem flight_cache_coherent (ids : UuidText) {rows₀ : Rows} (htables : Tables rows₀)
    {events : List CacheEvent} {pool : CachePool}
    (hrun : (service ids).run (start rows₀) events = some pool)
    (hcanonical : events.all (starts (canonical ids)) = true)
    (hfills : (service ids).passes fillsInTime (start rows₀) events = true) :
    ∀ i request result change, pool.Answered i request result →
      pool.shared.changes i = some change → ∀ text, ids.parse text = some change.item →
      ids.text change.item = text → ∀ f, hitFlight pool.shared.redis (flightKey text) = some f →
        f.id = change.item ∧ change.version ≤ f.row.version := by
  intro i request result change hanswered hchange text hparse htext f hhit
  have hpool : Coherently ids rows₀ (fun request => canonical ids request = true) pool := by
    refine Service.run_invariant ?_ (coherently_start htables)
      (Service.passes_and hfills (Service.passes_of_all hcanonical _)) hrun
    intro pool event final h hcheck hnext
    simp only [Bool.and_eq_true] at hcheck
    refine coherently_next h (fun request hevent => ?_) hcheck.1 hnext
    subst hevent
    exact hcheck.2
  obtain ⟨hok, ⟨text', hdeleted, hdeletes⟩, _⟩ :=
    hpool.holds.answered i request result hanswered change hchange
  have hkey : text' = text := by
    cases request with
    | reserveSeats flightId bookingId seatCount =>
        obtain ⟨rfl, hid⟩ := hdeletes
        simp only [canonical, hid, Option.all_some, decide_eq_true_eq] at hok
        rw [← hok, htext]
    | releaseReservation bookingId => exact hdeletes.trans htext
    | getFlight flightId => exact hdeletes.elim
    | searchFlights req => exact hdeletes.elim
  subst hkey
  have hpayload := payload_of_hitFlight hhit
  obtain ⟨f', hf', hid⟩ := hpool.holds.inv.named text' _ hpayload
  obtain rfl := Payload.flight.inj hf'
  have hitem : f.id = change.item := Option.some.inj (hid.symm.trans hparse)
  exact ⟨hitem, hpool.holds.inv.coherent.fresh i change hchange _ hdeleted _ hpayload _
    ⟨f, List.mem_singleton.mpr rfl, hitem, rfl⟩⟩

/-- The steps of request `i`, with a key for a new reservation. -/
def steps (i n : Nat) : List CacheEvent := List.replicate n (.step i (.proceed 20))

/-- The available seats in the answer to a GetFlight. -/
def seatsAnswered (pool : CachePool) (i : Nat) : Option Int :=
  match pool.threads[i]? with
  | some ⟨_, .answered (.ok (.flight f))⟩ => some f.availableSeats
  | _ => none

/-- The available seats in the answer to a SearchFlights. -/
def seatsListed (pool : CachePool) (i : Nat) : Option (List (String × Int)) :=
  match pool.threads[i]? with
  | some ⟨_, .answered (.ok (.flights fs))⟩ => some (fs.map fun f => (f.id, f.availableSeats))
  | _ => none

def hasAnswered (pool : CachePool) (i : Nat) : Bool :=
  match pool.threads[i]? with
  | some ⟨_, .answered _⟩ => true
  | _ => false

/-- A reader that fills the cache before the reservation commits, and one that
    finds its payload deleted. -/
def timelyFills : List CacheEvent :=
  [.start (.getFlight (formatUuid 1)), .start (.reserveSeats (formatUuid 1) (formatUuid 7) 3)] ++
    steps 0 2 ++ steps 1 4 ++ steps 0 2 ++ steps 1 9 ++
    .start (.getFlight (formatUuid 1)) :: steps 2 4

theorem flight_cache_coherent_sample : ∃ pool : CachePool,
    (service uuidText).run (start sampleRows) timelyFills = some pool ∧
      hasAnswered pool 1 = true ∧ seatsAnswered pool 2 = some 1 ∧
      ∀ i request result change, pool.Answered i request result →
        pool.shared.changes i = some change → ∀ text,
        uuidText.parse text = some change.item → uuidText.text change.item = text →
        ∀ f, hitFlight pool.shared.redis (flightKey text) = some f →
          f.id = change.item ∧ change.version ≤ f.row.version := by
  have hrun : ((service uuidText).run (start sampleRows) timelyFills).isSome := by
    decide +kernel
  exact ⟨_, (Option.some_get hrun).symm, by decide +kernel +revert, by decide +kernel +revert,
    flight_cache_coherent uuidText sampleRows_schema.toTables (Option.some_get hrun).symm
      (by decide +kernel) (by decide +kernel)⟩

/-- A reader that has read the flight before the reservation, and fills the
    cache after the deletion and before the setting of the version. -/
def lateFill : List CacheEvent :=
  [.start (.getFlight (formatUuid 1)), .start (.reserveSeats (formatUuid 1) (formatUuid 7) 3)] ++
    steps 0 2 ++ steps 1 7 ++ steps 0 2 ++ steps 1 6 ++
    .start (.getFlight (formatUuid 1)) :: steps 2 2

/-- The reservation has been answered and has left one of four seats, and a
    GetFlight that starts then is answered with four. -/
theorem flight_cache_stale : ∃ pool : CachePool,
    (service uuidText).run (start sampleRows) lateFill = some pool ∧
      lateFill.all (starts (canonical uuidText)) = true ∧ hasAnswered pool 1 = true ∧
      pool.shared.store.db.rows.lookup (.flight 1) = some (changeSeats (-3) sampleFlight) ∧
      seatsAnswered pool 2 = some 4 := by
  have hrun : ((service uuidText).run (start sampleRows) lateFill).isSome := by
    decide +kernel
  exact ⟨_, (Option.some_get hrun).symm, by decide +kernel +revert⟩

/-- Only a failing read of a flight is recorded as one. -/
theorem unread_of_exec {command : Command} {choice : Choice} {answer : Reply command} {j : Nat}
    (h : exec i command choice s = some (answer, s')) :
    s'.unread j = s.unread j ∨
      (j = i ∧ choice = .failure ∧ ∃ id, command = .db (.selectFlight id)) := by
  cases command with
  | db statement =>
      cases choice with
      | failure =>
          simp only [exec, Option.some.injEq, Prod.mk.injEq] at h
          obtain ⟨_, rfl⟩ := h
          cases statement with
          | selectFlight id =>
              by_cases hj : j = i
              · exact Or.inr ⟨hj, rfl, id, rfl⟩
              · exact Or.inl (Function.update_of_ne hj _ _)
          | _ => exact Or.inl rfl
      | proceed generated =>
          simp only [exec, Option.map_eq_some_iff, Prod.mk.injEq] at h
          obtain ⟨⟨answer', store⟩, _, _, rfl⟩ := h
          cases statement with
          | _ => exact Or.inl rfl
  | searchFlights origin destination date =>
      cases choice with
      | failure =>
          simp only [exec, Option.some.injEq, Prod.mk.injEq] at h
          exact Or.inl (by rw [h.2])
      | proceed generated =>
          simp only [exec, Option.some.injEq, Prod.mk.injEq] at h
          exact Or.inl (by rw [h.2])
  | get key =>
      simp only [exec, Option.some.injEq, Prod.mk.injEq] at h
      exact Or.inl (by rw [h.2])
  | del key =>
      simp only [exec, Option.some.injEq, Prod.mk.injEq] at h
      exact Or.inl (by rw [← h.2]; rfl)
  | setIfNewer key version payload =>
      simp only [exec, Option.some.injEq, Prod.mk.injEq] at h
      exact Or.inl (by rw [← h.2])
  | setVersionIfNewer key version =>
      simp only [exec, Option.some.injEq, Prod.mk.injEq] at h
      exact Or.inl (by rw [← h.2]; rfl)

/-- Every writer has been able to read its flight again. -/
def ReadAgain (pool : CachePool) : Prop :=
  ∀ (j : Nat) (thread : Thread Command Reply RpcError Response Request),
    pool.threads[j]? = some thread → isWriter thread.request = true →
      pool.shared.unread j = false

theorem readAgain_next {pool final : CachePool} {event : CacheEvent}
    (hpool : (coherence ids rows₀ ok).Holds (service ids) pool) (h : ReadAgain pool)
    (hreads : readsAgain pool event = true)
    (hnext : (service ids).next pool event = some final) : ReadAgain final := by
  intro j thread hj hwriter
  rcases Service.thread_of_next hnext hj with ⟨before, hbefore, hsame⟩ | ⟨rfl, rfl⟩
  · rw [← hsame] at hwriter
    have hunread := h j before hbefore hwriter
    cases Service.move_of_next hnext with
    | start request => exact hunread
    | @exec i choice request command next answer s hthread hexec =>
        rcases unread_of_exec (j := j) hexec with hkept | ⟨rfl, rfl, id, rfl⟩
        · exact hkept.trans hunread
        · rw [hthread, Option.some.injEq] at hbefore
          subst hbefore
          simp only [readsAgain, hthread, hwriter, Bool.not_true] at hreads
          cases hreads
    | answer => exact hunread
    | stop => exact hunread
    | @outside change s hchange => exact change.elim
  · simp only [Service.next, Option.some.injEq] at hnext
    subst hnext
    exact (hpool.unused _ (Nat.le_refl _)).2.unread

/-- A search that is spelled as the rows fits each flight that it lists. -/
theorem fits_of_spelled
    (hdates : ∀ id (row : Flight), rows₀.lookup (.flight id) = some row →
      row.flightDate = utcDate row.departureTime)
    {req : SearchFlightsRequest} (h : spelled rows₀ (.searchFlights req) = true) {id : Uuid}
    {row : Flight} (hrow : rows₀.lookup (.flight id) = some row) (hlists : req.lists row = true) :
    req.fits row = true := by
  simp only [spelled, List.all_eq_true] at h
  have hthis := h ⟨.flight id, row⟩ (AList.mem_lookup_iff.mp hrow)
  simp only [hlists, Bool.not_true, Bool.false_or] at hthis
  simp only [SearchFlightsRequest.fits, hthis, Bool.true_and]
  simp only [SearchFlightsRequest.lists, selects, Bool.and_eq_true] at hlists
  cases hdate : req.date with
  | none => rfl
  | some date =>
      have hday := hlists.2
      rw [hdate, Option.all_some, decide_eq_true_eq] at hday
      rw [Option.all_some, decide_eq_true_eq, ← hday, hdates id row hrow]

theorem mem_listKeys_of_fits {req : SearchFlightsRequest} {row : Flight}
    (h : req.fits row = true) : req.key ∈ listKeys row := by
  rcases key_of_fits h with hkey | hkey
  · rw [hkey]
    exact List.mem_cons_self
  · rw [hkey]
    exact List.mem_cons_of_mem _ List.mem_cons_self

/-- Where searches write routes as the rows do, writers can read their flight
    again and fills come in time, SearchFlights never finds a flight older than
    an answered change of it. -/
theorem search_cache_coherent (ids : UuidText) {rows₀ : Rows} (htables : Tables rows₀)
    (hdates : ∀ id (row : Flight), rows₀.lookup (.flight id) = some row →
      row.flightDate = utcDate row.departureTime)
    {events : List CacheEvent} {pool : CachePool}
    (hrun : (service ids).run (start rows₀) events = some pool)
    (hspelled : events.all (starts (spelled rows₀)) = true)
    (hreads : (service ids).passes readsAgain (start rows₀) events = true)
    (hfills : (service ids).passes fillsInTime (start rows₀) events = true) :
    ∀ i request result change, pool.Answered i request result →
      pool.shared.changes i = some change → ∀ name fs,
        hitSearch pool.shared.redis (.search name) = some fs →
          ∀ f ∈ fs, f.id = change.item → change.version ≤ f.row.version := by
  intro i request result change hanswered hchange name fs hhit f hf hitem
  obtain ⟨hpool, hagain⟩ : Coherently ids rows₀ (fun request => spelled rows₀ request = true) pool ∧
      ReadAgain pool := by
    refine Service.run_invariant (P := fun pool => Coherently ids rows₀
        (fun request => spelled rows₀ request = true) pool ∧ ReadAgain pool) ?_
      ⟨coherently_start htables, fun j thread hj => by cases hj⟩
      (Service.passes_and (Service.passes_and hfills hreads)
        (Service.passes_of_all hspelled _)) hrun
    rintro pool event final ⟨h, hagain⟩ hcheck hnext
    simp only [Bool.and_eq_true] at hcheck
    refine ⟨coherently_next h (fun request hevent => ?_) hcheck.1.1 hnext,
      readAgain_next h.holds hagain hcheck.1.2 hnext⟩
    subst hevent
    exact hcheck.2
  obtain ⟨_, ⟨text, _, hdeletes⟩, htold⟩ :=
    hpool.holds.answered i request result hanswered change hchange
  have hwriter : isWriter request = true := by
    cases request with
    | getFlight flightId => exact hdeletes.elim
    | searchFlights req => exact hdeletes.elim
    | _ => rfl
  obtain ⟨row₀, hrow₀, hdeleted⟩ := htold (hagain i _ hanswered hwriter)
  have hpayload := payload_of_hitSearch hhit
  obtain ⟨fs', hfs', hlisted⟩ := hpool.holds.inv.searched name _ hpayload
  obtain rfl := Payload.flights.inj hfs'
  obtain ⟨req, row, hok, hkey, hrow, hlists⟩ := hlisted f hf
  rw [hitem, hrow₀, Option.some.injEq] at hrow
  subst hrow
  have hmem := mem_listKeys_of_fits (fits_of_spelled hdates hok hrow₀ hlists)
  rw [hkey] at hmem
  exact hpool.holds.inv.coherent.fresh i change hchange _ (hdeleted _ hmem) _ hpayload _
    ⟨f, hf, hitem, rfl⟩

/-- A search that fills the cache before the reservation commits, and one that
    finds its payload deleted. -/
def timelySearches : List CacheEvent :=
  [.start (.searchFlights ⟨"SVO", "LED", none⟩),
    .start (.reserveSeats (formatUuid 1) (formatUuid 7) 3)] ++
    steps 0 2 ++ steps 1 4 ++ steps 0 2 ++ steps 1 9 ++
    .start (.searchFlights ⟨"SVO", "LED", none⟩) :: steps 2 4

theorem search_cache_coherent_sample : ∃ pool : CachePool,
    (service uuidText).run (start sampleRows) timelySearches = some pool ∧
      hasAnswered pool 1 = true ∧ seatsListed pool 2 = some [(formatUuid 1, 1)] ∧
      ∀ i request result change, pool.Answered i request result →
        pool.shared.changes i = some change → ∀ name fs,
          hitSearch pool.shared.redis (.search name) = some fs →
            ∀ f ∈ fs, f.id = change.item → change.version ≤ f.row.version := by
  have hrun : ((service uuidText).run (start sampleRows) timelySearches).isSome := by
    decide +kernel
  have hdates : ∀ id (row : Flight), sampleRows.lookup (.flight id) = some row →
      row.flightDate = utcDate row.departureTime := by
    intro id row hrow
    rw [eq_of_lookup_flight hrow]
    decide
  exact ⟨_, (Option.some_get hrun).symm, by decide +kernel +revert, by decide +kernel +revert,
    search_cache_coherent uuidText sampleRows_schema.toTables hdates
      (Option.some_get hrun).symm (by decide +kernel) (by decide +kernel) (by decide +kernel)⟩

/-- A second flight on the route, which has been changed five times. -/
def twoRows : Rows :=
  sampleRows.insert (.flight 2) { sampleFlight with flightNumber := "SU1236", version := 5 }

/-- A search that has read both flights before the reservation, and fills the
    cache after it has been answered. -/
def lateSearch : List CacheEvent :=
  [.start (.searchFlights ⟨"SVO", "LED", none⟩),
    .start (.reserveSeats (formatUuid 1) (formatUuid 7) 3)] ++
    steps 0 2 ++ steps 1 13 ++ steps 0 2 ++
    .start (.searchFlights ⟨"SVO", "LED", none⟩) :: steps 2 2

/-- The list has the version of the other flight, which exceeds the one that
    the reservation has set: the search lists four seats where one is left. -/
theorem search_cache_stale : ∃ pool : CachePool,
    (service uuidText).run (start twoRows) lateSearch = some pool ∧
      lateSearch.all (starts (spelled twoRows)) = true ∧ hasAnswered pool 1 = true ∧
      pool.shared.store.db.rows.lookup (.flight 1) = some (changeSeats (-3) sampleFlight) ∧
      seatsListed pool 2 = some [(formatUuid 2, 4), (formatUuid 1, 4)] := by
  have hrun : ((service uuidText).run (start twoRows) lateSearch).isSome := by
    decide +kernel
  exact ⟨_, (Option.some_get hrun).symm, by decide +kernel +revert⟩

end SoaHomework.FlightCache
