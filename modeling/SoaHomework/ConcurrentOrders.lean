import SoaHomework.OrderGuards

/-!
# Concurrent create_order requests

Both guards of `create_order` are reads, and nothing keeps what they have read until the
commit. As long as no other `create_order` of the user commits in between, it still holds
(`create_order_guards`); otherwise both guards can be passed twice (`create_order_race`).
-/

namespace SoaHomework.Marketplace

open StatementProgram

variable {settings : Settings} {u : Uuid} {rows₀ rows : Rows} {request : Request}
  {pool final : MarketPool} {event : MarketEvent}

/-! ## Runs that meet the guards -/

/-- The `create_order` of `u` that executes a statement in the step. -/
def creating (u : Uuid) (pool : MarketPool) : MarketEvent → Option (Nat × Statement)
  | .step i (.proceed _) =>
      match pool.threads[i]? with
      | some ⟨.createOrder subject _, .running (.step statement _)⟩ =>
          if subject = u then some (i, statement) else none
      | _ => none
  | _ => none

/-- The clock shows a `create_order` of `u` the time at which its transaction began. -/
def oneTime (u : Uuid) (pool : MarketPool) (event : MarketEvent) : Bool :=
  match creating u pool event with
  | some (i, .now) => decide ((sessionOf pool i).began = some pool.shared.clock)
  | _ => true

/-- The requests that have begun to read their guards since a `create_order` of `u` has
    last committed. -/
def readersAfter (u : Uuid) (pool : MarketPool) (event : MarketEvent) (readers : List Nat) :
    List Nat :=
  match creating u pool event with
  | some (i, .selectLastOperation _ _) => i :: readers
  | some (_, .commit) => []
  | _ => readers

/-- A `create_order` of `u` that commits is one of `readers`. -/
def commitsReader (u : Uuid) (readers : List Nat) (pool : MarketPool) (event : MarketEvent) :
    Bool :=
  match creating u pool event with
  | some (i, .commit) => decide (i ∈ readers)
  | _ => true

/-- No `create_order` of `u` commits after another one has committed since it began to
    read its guards. -/
def guardsCurrent (settings : Settings) (u : Uuid) (readers : List Nat) (pool : MarketPool) :
    List MarketEvent → Bool
  | [] => true
  | event :: events => commitsReader u readers pool event &&
      match (service settings).next pool event with
      | some pool' => guardsCurrent settings u (readersAfter u pool event readers) pool' events
      | none => true

theorem creating_step {i : Nat} {payload : OrderCreateRequest} {statement : Statement}
    {next : Answer statement → Handler Response} (generated : List Uuid)
    (h : pool.Runs i (.createOrder u payload) (.step statement next)) :
    creating u pool (.step i (.proceed generated)) = some (i, statement) := by
  rw [Pool.Runs] at h
  simp only [creating, h, if_true]

theorem creating_other {i : Nat} {program : Handler Response} (choice : Choice)
    (h : pool.Runs i request program) (hrequest : ¬ request.Creates u) :
    creating u pool (.step i choice) = none := by
  rw [Pool.Runs] at h
  cases choice with
  | failure => rfl
  | proceed generated =>
      simp only [creating, h]
      split
      · rename_i heq
        simp only [Option.some.injEq, Thread.mk.injEq] at heq
        obtain ⟨rfl, _⟩ := heq
        exact if_neg hrequest
      · rfl

theorem creating_ended {i : Nat} {program : Handler Response}
    {result : Except HandlerError Response} (choice : Choice) (h : pool.Runs i request program)
    (hended : program.outcome? = some result) :
    creating u pool (.step i choice) = none := by
  rw [Pool.Runs] at h
  cases choice with
  | failure => rfl
  | proceed generated =>
      simp only [creating, h]
      split
      · rename_i heq
        simp only [Option.some.injEq, Thread.mk.injEq, Status.running.injEq] at heq
        obtain ⟨_, rfl⟩ := heq
        cases hended
      · rfl

/-! ## The other requests -/

/-- The statement records a `create_order`. -/
def Statement.accepts : Statement → Bool
  | .insertOperation _ operationType => decide (operationType = .createOrder)
  | _ => false

/-- No written row records a `create_order`. -/
def Unaccepted (written : Rows) : Prop :=
  ∀ k op, written.lookup (.operation k) = some op → op.operationType ≠ .createOrder

theorem accepts_of_catalog {α : Type} {p : Handler α}
    (h : p.Uses fun statement => statement.catalog = true) :
    p.Uses fun statement => statement.accepts = false := by
  apply h.mono
  intro statement hcatalog
  cases statement with
  | insertOperation userID operationType => cases hcatalog
  | _ => rfl

theorem accepts_of_endsWith {id : Uuid} {p : Handler Response}
    (h : p.EndsWith (Statement.Changes id) (commitOrder id)) :
    p.Uses fun statement => statement.accepts = false := by
  apply h.uses
  · intro statement hchanges
    cases statement with
    | insertOperation userID operationType =>
        obtain rfl : operationType = .updateOrder := hchanges
        rfl
    | _ => rfl
  · refine Program.uses_bind (uses_query rfl) fun _ => ?_
    exact uses_orderResponse rfl rfl

theorem accepts_handle (h : ∀ subject payload, request ≠ .createOrder subject payload) :
    (handle settings request).Uses fun statement => statement.accepts = false := by
  cases request with
  | createProduct subject payload =>
      exact accepts_of_catalog (catalog_createProduct subject payload)
  | updateProduct subject id payload =>
      exact accepts_of_catalog (catalog_updateProduct subject id payload)
  | deleteProduct subject id => exact accepts_of_catalog (catalog_deleteProduct subject id)
  | createPromoCode subject payload =>
      exact accepts_of_catalog (catalog_createPromoCode subject payload)
  | createOrder subject payload => exact absurd rfl (h subject payload)
  | updateOrder subject id payload =>
      exact accepts_of_endsWith (endsWith_updateOrder subject payload)
  | cancelOrder subject id => exact accepts_of_endsWith (endsWith_cancelOrder subject)

section Statements

variable {i : Nat} {s s' : State} {generated : List Uuid}

theorem Unaccepted.empty : Unaccepted ∅ := by
  intro k op hop
  rw [AList.lookup_empty] at hop
  cases hop

theorem proceed_unaccepted {statement : Statement} {answer : Answer statement}
    (haccepts : statement.accepts = false)
    (hrun : proceed i generated s statement = some (answer, s'))
    (h : Unaccepted (s.db.pending i)) : Unaccepted (s'.db.pending i) := by
  by_cases hcommit : statement = .commit
  · subst hcommit
    obtain ⟨_, rfl⟩ := answerLoaded_eq hrun
    have hempty : (s.db.commit i).pending i = ∅ := Function.update_self _ _ _
    rw [withSession_db, withDb_db, hempty]
    exact .empty
  · by_cases hrecord : ∃ userID operationType, statement = .insertOperation userID operationType
    · obtain ⟨userID, operationType, rfl⟩ := hrecord
      obtain ⟨_, id, hpending⟩ := proceed_insertOperation hrun
      intro k op hop
      rw [hpending] at hop
      by_cases hk : k = id
      · subst hk
        rw [AList.lookup_insert, Option.some.injEq] at hop
        subst hop
        exact of_decide_eq_false haccepts
      · rw [AList.lookup_insert_ne (by simpa using hk)] at hop
        exact h k op hop
    · have hcontinues : Continues i s s' := by
        refine proceed_continues hcommit ?_ hrun
        exact fun userID operationType heq => hrecord ⟨userID, operationType, heq⟩
      intro k op hop
      rw [hcontinues.operations] at hop
      exact h k op hop

end Statements

/-! ## Where a running request stands -/

/-- A `create_order` is in one of its phases, and if it is one of `readers`, what it has
    read still holds. Any other request has recorded no `create_order`. -/
inductive Stands (settings : Settings) (u : Uuid) (readers : List Nat) (i : Nat) (s : State)
    (request : Request) (program : Handler Response) : Prop where
  | creating {subject : Uuid} {payload : OrderCreateRequest} (phase : GuardPhase)
      (hrequest : request = .createOrder subject payload)
      (hadmits : phase.Admits settings subject program fun _ _ => True)
      (hwrote : phase.Wrote subject (s.sessions i) (s.db.pending i))
      (hknows : subject = u → i ∈ readers →
        phase.Knows settings subject (s.sessions i) s.db.rows)
  | other (hrequest : ∀ subject payload, request ≠ .createOrder subject payload)
      (huses : program.Uses fun statement => statement.accepts = false)
      (hpending : Unaccepted (s.db.pending i))

section Stands

variable {readers readers' : List Nat} {i : Nat} {s s' : State} {program : Handler Response}

/-- What the others do leaves a request where it stands. -/
theorem Stands.undisturbed (h : Stands settings u readers i s request program)
    (hsession : s'.sessions i = s.sessions i) (hpending : s'.db.pending i = s.db.pending i)
    (hreaders : i ∈ readers' → i ∈ readers ∧ NoMore u s.db.rows s'.db.rows) :
    Stands settings u readers' i s' request program := by
  cases h with
  | creating phase hrequest hadmits hwrote hknows =>
      refine .creating phase hrequest hadmits ?_ ?_
      · rw [hsession, hpending]
        exact hwrote
      · rintro rfl hreader
        obtain ⟨hbefore, hmore⟩ := hreaders hreader
        rw [hsession]
        exact (hknows rfl hbefore).noMore hmore
  | other hrequest huses hold =>
      refine .other hrequest huses ?_
      rw [hpending]
      exact hold

theorem stands_start (hidle : s.db.Idle i) :
    Stands settings u readers i s request (handle settings request) := by
  by_cases hcreate : ∃ subject payload, request = .createOrder subject payload
  · obtain ⟨subject, payload, rfl⟩ := hcreate
    exact .creating .fresh rfl (admits_createOrder payload) hidle.pending fun _ _ => trivial
  · have hother : ∀ subject payload, request ≠ .createOrder subject payload :=
      fun subject payload heq => hcreate ⟨subject, payload, heq⟩
    refine .other hother (accepts_handle hother) ?_
    rw [hidle.pending]
    exact .empty

theorem GuardStep.knows_of_last {subject userID : Uuid} {operationType : OperationType}
    {last : Option Int} {phase phase' : GuardPhase} {session : Session}
    (h : GuardStep settings subject (.selectLastOperation userID operationType) last phase phase') :
    phase.Knows settings subject session rows := by
  cases h with
  | last last => trivial
  | place _ hplaces => cases hplaces
  | report _ _ => trivial

/-- A statement takes the request on. -/
theorem Stands.step {statement : Statement} {next : Answer statement → Handler Response}
    {choice : Choice} {answer : Answer statement}
    (h : Stands settings u readers i s request (.step statement next))
    (hexec : execute i statement choice s = some (answer, s'))
    (hclock : ∀ generated, choice = .proceed generated → request.Creates u →
      statement = .now → (s.sessions i).began = some s.clock)
    (hreaders : i ∈ readers' → i ∈ readers ∨
      ∃ userID operationType, statement = .selectLastOperation userID operationType) :
    Stands settings u readers' i s' request (next answer) := by
  cases h with
  | creating phase hrequest hadmits hwrote hknows =>
      obtain ⟨phase', hadvance, hnext⟩ := hadmits answer
      cases answer with
      | error error =>
          obtain rfl := Option.some.inj hadvance
          exact .creating .refused hrequest hnext trivial fun _ _ => trivial
      | ok result =>
          have hstep := guardStep_of_advance hadvance
          cases choice with
          | failure => cases hexec
          | proceed generated =>
              refine .creating phase' hrequest hnext (hstep.wrote hexec hwrote) ?_
              rintro rfl hreader
              refine hstep.knows hexec (hclock generated rfl ?_) hwrote ?_
              · rw [hrequest]
                rfl
              · rcases hreaders hreader with hbefore | ⟨userID, operationType, rfl⟩
                · exact hknows rfl hbefore
                · exact hstep.knows_of_last
  | other hrequest huses hpending =>
      obtain ⟨haccepts, hnext⟩ := huses
      refine .other hrequest (hnext answer) ?_
      cases choice with
      | failure =>
          obtain ⟨_, rfl⟩ := execute_failure (i := i) hexec
          exact hpending
      | proceed generated => exact proceed_unaccepted haccepts hexec hpending

/-! ## The commit -/

/-- What a commit makes of the accepted operations. -/
theorem Stands.accepted {next : Answer .commit → Handler Response}
    (h : Stands settings u readers i s request (.step .commit next)) :
    ∃ b id, ∀ v k t, Accepted (s.db.commit i).rows v k t → Accepted s.db.rows v k t ∨
      (request.Creates v ∧ (s.sessions i).began = some b ∧ k = id ∧ t = b) := by
  have hread : ∀ v k t, Accepted (s.db.commit i).rows v k t → Accepted s.db.rows v k t ∨
      (s.db.pending i).lookup (.operation k) = some ⟨v, .createOrder, t⟩ := by
    intro v k t hk
    rw [Accepted, RowStore.commit_rows, RowStore.lookup_union_or] at hk
    cases hpending : (s.db.pending i).lookup (.operation k) with
    | none =>
        rw [hpending] at hk
        exact Or.inl hk
    | some op =>
        rw [hpending] at hk
        exact Or.inr hk
  cases h with
  | @creating subject payload phase hrequest hadmits hwrote hknows =>
      obtain ⟨phase', hadvance, _⟩ := hadmits (.ok ())
      cases guardStep_of_advance hadvance with
      | place _ hplaces => cases hplaces
      | report _ hcommit => exact absurd rfl hcommit
      | commit =>
          obtain ⟨b, id, hb, hwritten⟩ := hwrote
          refine ⟨b, id, fun v k t hk => ?_⟩
          rcases hread v k t hk with hold | hnew
          · exact Or.inl hold
          · obtain ⟨rfl, heq⟩ := hwritten k _ hnew
            obtain ⟨rfl, _, rfl⟩ := UserOperation.mk.inj heq
            refine Or.inr ⟨?_, hb, rfl, rfl⟩
            rw [hrequest]
            rfl
  | other hrequest huses hpending =>
      refine ⟨0, 0, fun v k t hk => ?_⟩
      rcases hread v k t hk with hold | hnew
      · exact Or.inl hold
      · exact absurd rfl (hpending k _ hnew)

/-- A `create_order` of `u` that commits while what it has read holds keeps the guards. -/
theorem Stands.knows {next : Answer .commit → Handler Response}
    (h : Stands settings u readers i s request (.step .commit next))
    (hcreates : request.Creates u) (hreader : i ∈ readers) :
    Due settings u (s.sessions i) s.db.rows ∧ ∀ id, ¬ HasActive s.db.rows u id := by
  cases h with
  | @creating subject payload phase hrequest hadmits hwrote hknows =>
      subst hrequest
      obtain rfl : subject = u := hcreates
      obtain ⟨phase', hadvance, _⟩ := hadmits (.ok ())
      cases guardStep_of_advance hadvance with
      | place _ hplaces => cases hplaces
      | report _ hcommit => exact absurd rfl hcommit
      | commit => exact hknows rfl hreader
  | other hrequest _ _ =>
      cases request with
      | createOrder subject payload => exact absurd rfl (hrequest subject payload)
      | _ => cases hcreates

end Stands

/-! ## The invariant -/

/-- The committed rows meet the guards, and every running request stands where it should. -/
structure Guarding (settings : Settings) (u : Uuid) (readers : List Nat) (pool : MarketPool) :
    Prop where
  holds : discipline.Holds (service settings) pool
  guarded : Guarded settings u (rowsOf pool)
  stands : ∀ i request program, pool.Runs i request program →
    Stands settings u readers i pool.shared request program

section Guarding

variable {readers readers' : List Nat}

/-- A commit of one order and one operation. -/
theorem Guarded.commit {rows' : Rows} {session : Session} (h : Guarded settings u rows)
    (b : Int) (id₀ k₀ : Uuid) (hdue : Due settings u session rows)
    (hnone : ∀ id, ¬ HasActive rows u id)
    (hactive : ∀ id, HasActive rows' u id → HasActive rows u id ∨ id = id₀)
    (haccepted : ∀ k t, Accepted rows' u k t → Accepted rows u k t ∨
      (session.began = some b ∧ k = k₀ ∧ t = b)) : Guarded settings u rows' where
  active id id' hid hid' := by
    have hnew : ∀ id, HasActive rows' u id → id = id₀ :=
      fun id hid => (hactive id hid).resolve_left (hnone id)
    rw [hnew id hid, hnew id' hid']
  spaced opens k k' t t' hk hk' hopens hcloses hopens' hcloses' := by
    rcases haccepted k t hk with hold | ⟨hb, rfl, rfl⟩
    · rcases haccepted k' t' hk' with hold' | ⟨hb, rfl, rfl⟩
      · exact h.spaced opens k k' t t' hold hold' hopens hcloses hopens' hcloses'
      · have hlate := hdue k t t' hold hb
        omega
    · rcases haccepted k' t' hk' with hold' | ⟨_, rfl, rfl⟩
      · have hlate := hdue k' t' t hold' hb
        omega
      · rfl

/-- A request that ends or goes on, seen from all that are running. -/
theorem Guarding.stands_update (h : Guarding settings u readers pool) {i : Nat} {s : State}
    {program : Handler Response} {status : Status Statement Answer HandlerError Response}
    (hthread : pool.Runs i request program)
    (hself : ∀ program', status = .running program' →
      Stands settings u readers' i s request program')
    (hothers : ∀ j, i ≠ j → Undisturbed j pool.shared s)
    (hreaders : ∀ j, i ≠ j → j ∈ readers' → j ∈ readers ∧ NoMore u (rowsOf pool) s.db.rows) :
    ∀ j request' program', (pool.update i status s).Runs j request' program' →
      Stands settings u readers' j s request' program' := by
  intro j request' program' hj
  rcases Service.thread_update hthread hj with ⟨rfl, rfl, hstatus⟩ | ⟨hij, hj'⟩
  · exact hself program' hstatus.symm
  · have hother := hothers j hij
    exact (h.stands j request' program' hj').undisturbed hother.session hother.keeps.pending
      (hreaders j hij)

/-- The readers after a statement that is not the commit of a `create_order` of `u`. -/
theorem mem_readersAfter {i j : Nat} {statement : Statement}
    {next : Answer statement → Handler Response} {choice : Choice}
    (hthread : pool.Runs i request (.step statement next))
    (h : j ∈ readersAfter u pool (.step i choice) readers) : j ∈ readers ∨
      (j = i ∧ ∃ userID operationType, statement = .selectLastOperation userID operationType) := by
  by_cases hcreates : request.Creates u
  · cases request with
    | createOrder subject payload =>
        obtain rfl : subject = u := hcreates
        cases choice with
        | failure => exact Or.inl h
        | proceed generated =>
            rw [readersAfter, creating_step generated hthread] at h
            cases statement with
            | selectLastOperation userID operationType =>
                rcases List.mem_cons.mp h with rfl | hold
                · exact Or.inr ⟨rfl, userID, operationType, rfl⟩
                · exact Or.inl hold
            | commit => cases h
            | _ => exact Or.inl h
    | _ => cases hcreates
  · rw [readersAfter, creating_other choice hthread hcreates] at h
    exact Or.inl h

theorem oneTime_now {i : Nat} {next : Answer .now → Handler Response} {generated : List Uuid}
    (hthread : pool.Runs i request (.step .now next)) (hcreates : request.Creates u)
    (h : oneTime u pool (.step i (.proceed generated)) = true) :
    (sessionOf pool i).began = some pool.shared.clock := by
  cases request with
  | createOrder subject payload =>
      obtain rfl : subject = u := hcreates
      rw [oneTime, creating_step generated hthread] at h
      exact of_decide_eq_true h
  | _ => cases hcreates

/-- A statement that leaves the committed rows. -/
theorem Guarding.quiet (h : Guarding settings u readers pool) {i : Nat} {s : State}
    {statement : Statement} {next : Answer statement → Handler Response} {choice : Choice}
    {answer : Answer statement} (hthread : pool.Runs i request (.step statement next))
    (hexec : (service settings).exec i statement choice pool.shared = some (answer, s))
    (hrows : s.db.rows = rowsOf pool) (hclock : oneTime u pool (.step i choice) = true) :
    ∀ j request' program', (pool.update i (.running (next answer)) s).Runs j request' program' →
      Stands settings u (readersAfter u pool (.step i choice) readers) j s request' program' := by
  have hguarantee := h.holds.guarantee sound hthread trivial hexec
  refine h.stands_update hthread ?_ hguarantee.1 ?_
  · intro program' hstatus
    obtain rfl := Status.running.inj hstatus
    refine (h.stands i request _ hthread).step hexec ?_ ?_
    · rintro generated rfl hcreates rfl
      exact oneTime_now hthread hcreates hclock
    · intro hreader
      rcases mem_readersAfter hthread hreader with hold | ⟨_, hlast⟩
      · exact Or.inl hold
      · exact Or.inr hlast
  · intro j hij hreader
    rw [hrows]
    rcases mem_readersAfter hthread hreader with hold | ⟨rfl, _⟩
    · exact ⟨hold, .refl u _⟩
    · exact absurd rfl hij

/-- What a commit makes of the active orders. -/
theorem Change.hasActive {i : Nat} {s s' : State} (h : Change request i s s') :
    ∃ id₀, ∀ v id, HasActive s'.db.rows v id → HasActive s.db.rows v id ∨
      (request.Creates v ∧ id = id₀) := by
  cases h with
  | quiet hrows _ =>
      refine ⟨0, fun v id hid => Or.inl ?_⟩
      rwa [hrows] at hid
  | effect heffect _ => exact heffect.hasActive

/-- The commit of a request. -/
theorem Guarding.commits (h : Guarding settings u readers pool) {i : Nat} {s : State}
    {next : Answer .commit → Handler Response} {generated : List Uuid} {answer : Answer .commit}
    (hthread : pool.Runs i request (.step .commit next))
    (hexec : (service settings).exec i .commit (.proceed generated) pool.shared = some (answer, s))
    (hclock : oneTime u pool (.step i (.proceed generated)) = true)
    (hreads : commitsReader u readers pool (.step i (.proceed generated)) = true) :
    Guarded settings u s.db.rows ∧
      ∀ j request' program', (pool.update i (.running (next answer)) s).Runs j request' program' →
        Stands settings u (readersAfter u pool (.step i (.proceed generated)) readers) j s
          request' program' := by
  have hguarantee := h.holds.guarantee sound hthread trivial hexec
  have hexecute : execute i .commit (.proceed generated) pool.shared = some (answer, s) := hexec
  have hstands := h.stands i request _ hthread
  obtain ⟨id₀, hactive⟩ := hguarantee.2.hasActive
  obtain ⟨b, k₀, haccepted⟩ := hstands.accepted
  obtain ⟨_, hs⟩ := answerLoaded_eq hexec
  have hrows : s.db.rows = (pool.shared.db.commit i).rows := by
    rw [hs]
    rfl
  rw [← hrows] at haccepted
  have hself : ∀ program', Status.running (next answer) = .running program' →
      Stands settings u (readersAfter u pool (.step i (.proceed generated)) readers) i s
        request program' := by
    intro program' hstatus
    obtain rfl := Status.running.inj hstatus
    refine hstands.step hexecute ?_ ?_
    · rintro generated' _ _ hnow
      cases hnow
    · intro hreader
      rcases mem_readersAfter hthread hreader with hold | ⟨_, hlast⟩
      · exact Or.inl hold
      · exact Or.inr hlast
  by_cases hcreates : request.Creates u
  · have hcreating : creating u pool (.step i (.proceed generated)) = some (i, .commit) := by
      cases request with
      | createOrder subject payload =>
          obtain rfl : subject = u := hcreates
          exact creating_step generated hthread
      | _ => cases hcreates
    rw [commitsReader, hcreating] at hreads
    obtain ⟨hdue, hnone⟩ := hstands.knows hcreates (of_decide_eq_true hreads)
    have hafter : readersAfter u pool (.step i (.proceed generated)) readers = [] := by
      rw [readersAfter, hcreating]
    refine ⟨h.guarded.commit b id₀ k₀ hdue hnone ?_ ?_, ?_⟩
    · exact fun id hid => (hactive u id hid).imp_right And.right
    · exact fun k t hk => (haccepted u k t hk).imp_right And.right
    · refine h.stands_update hthread hself hguarantee.1 fun j _ hreader => ?_
      rw [hafter] at hreader
      cases hreader
  · have hmore : NoMore u (rowsOf pool) s.db.rows := by
      constructor
      · exact fun id hid => (hactive u id hid).resolve_right fun hnew => hcreates hnew.1
      · exact fun k t hk => (haccepted u k t hk).resolve_right fun hnew => hcreates hnew.1
    refine ⟨h.guarded.noMore hmore, h.stands_update hthread hself hguarantee.1 ?_⟩
    intro j _ hreader
    rw [readersAfter, creating_other _ hthread hcreates] at hreader
    exact ⟨hreader, hmore⟩

/-- A request that ends. -/
theorem Guarding.ends (h : Guarding settings u readers pool) {i : Nat}
    {program : Handler Response} {status : Status Statement Answer HandlerError Response}
    (hthread : pool.Runs i request program) (hstatus : ∀ program', status ≠ .running program') :
    ∀ j request' program', (pool.update i status ((service settings).close i pool.shared)).Runs j
        request' program' →
      Stands settings u readers j ((service settings).close i pool.shared) request' program' :=
  h.stands_update hthread (fun program' heq => absurd heq (hstatus program'))
    (fun _ hij => close_undisturbed hij) fun _ _ hreader => ⟨hreader, .refl u _⟩

theorem Guarding.next (h : Guarding settings u readers pool) (hclock : oneTime u pool event = true)
    (hreads : commitsReader u readers pool event = true)
    (hnext : (service settings).next pool event = some final) :
    Guarding settings u (readersAfter u pool event readers) final := by
  have hholds := holds_next h.holds hnext
  cases Service.move_of_next hnext with
  | start request =>
      refine ⟨hholds, h.guarded, fun j request' program' hj => ?_⟩
      rcases Service.thread_start hj with hbefore | ⟨rfl, rfl, hstatus⟩
      · exact h.stands j request' program' hbefore
      · obtain rfl := Status.running.inj hstatus
        exact stands_start (h.holds.unused _ (Nat.le_refl _)).1
  | @exec i choice request statement next answer s hthread hexec =>
      by_cases hcommits : statement = .commit ∧ ∃ generated, choice = .proceed generated
      · obtain ⟨rfl, generated, rfl⟩ := hcommits
        obtain ⟨hguarded, hstands⟩ := h.commits hthread hexec hclock hreads
        exact ⟨hholds, hguarded, hstands⟩
      · have hrows : s.db.rows = rowsOf pool := by
          cases choice with
          | failure => rw [(execute_failure (i := i) hexec).2]
          | proceed generated =>
              refine (proceed_frame h.holds.inv.1 (fun hcommit => ?_) hexec).2
              exact hcommits ⟨hcommit, generated, rfl⟩
        refine ⟨hholds, ?_, h.quiet hthread hexec hrows hclock⟩
        rw [rowsOf, Service.update_shared, hrows]
        exact h.guarded
  | @answer i choice request program result hthread houtcome =>
      have hafter : readersAfter u pool (.step i choice) readers = readers := by
        rw [readersAfter, creating_ended choice hthread houtcome]
      rw [hafter]
      exact ⟨hholds, h.guarded, h.ends hthread (by simp)⟩
  | stop hthread => exact ⟨hholds, h.guarded, h.ends hthread (by simp)⟩
  | @outside change s hchange =>
      obtain rfl := Option.some.inj hchange
      refine ⟨hholds, h.guarded, fun j request' program' hj => ?_⟩
      exact (h.stands j request' program' hj).undisturbed rfl rfl fun hreader =>
        ⟨hreader, .refl u _⟩

theorem guarding_start (hrows : Stored rows₀) (hguarded : Guarded settings u rows₀) :
    Guarding settings u [] (start rows₀) where
  holds := holds_start hrows
  guarded := hguarded
  stands i request program hi := by simp [Pool.Runs] at hi

theorem guarding_run {events : List MarketEvent} {first : MarketPool}
    (h : Guarding settings u readers first)
    (hclock : (service settings).passes (oneTime u) first events = true)
    (hcurrent : guardsCurrent settings u readers first events = true)
    (hrun : (service settings).run first events = some final) :
    Guarded settings u (rowsOf final) := by
  induction events generalizing first readers with
  | nil =>
      obtain rfl := Option.some.inj hrun
      exact h.guarded
  | cons event events ih =>
      simp only [Service.run, Option.bind_eq_some_iff] at hrun
      obtain ⟨middle, hnext, hrest⟩ := hrun
      simp only [Service.passes, hnext, Bool.and_eq_true] at hclock
      simp only [guardsCurrent, hnext, Bool.and_eq_true] at hcurrent
      exact ih (h.next hclock.1 hcurrent.1 hnext) hclock.2 hcurrent.2 hrest

/-- In every run in which no `create_order` of the user commits after another one has
    committed since its guards, the committed rows meet the guards of the user. -/
theorem create_order_guards (hrows : Stored rows₀) (hguarded : Guarded settings u rows₀)
    {events : List MarketEvent}
    (hclock : (service settings).passes (oneTime u) (start rows₀) events = true)
    (hcurrent : guardsCurrent settings u [] (start rows₀) events = true)
    (hrun : (service settings).run (start rows₀) events = some final) :
    Guarded settings u (rowsOf final) :=
  guarding_run (guarding_start hrows hguarded) hclock hcurrent hrun

end Guarding

/-! ## Examples -/

/-- The second user sends two orders for the first product; the second request reads its
    guards when the first has committed. Then the order is canceled, and five minutes after
    the first order the user sends another one. -/
def ordersInTurn : List MarketEvent :=
  [.start (.createOrder 2 (sampleOrder 10 none)), .start (.createOrder 2 (sampleOrder 10 none)),
    sampleStep 1 []] ++ List.replicate 5 (sampleStep 0 []) ++
    [sampleStep 0 [200], sampleStep 0 [201], sampleStep 0 [202], sampleStep 0 []] ++
    List.replicate 3 (sampleStep 1 []) ++
    .start (.cancelOrder 2 200) :: List.replicate 7 (sampleStep 2 []) ++
    .outside ⟨300000000⟩ :: .start (.createOrder 2 (sampleOrder 10 none)) ::
      List.replicate 6 (sampleStep 3 []) ++
    [sampleStep 3 [400], sampleStep 3 [401], sampleStep 3 [402], sampleStep 3 []]

theorem create_order_guards_sample : ∃ pool : MarketPool,
    (service ⟨5⟩).run (start sampleRows) ordersInTurn = some pool ∧
      (Accepted (rowsOf pool) 2 202 0 ∧ Accepted (rowsOf pool) 2 402 300000000 ∧
        activeOrder (rowsOf pool) 2 = some 400) ∧ Guarded ⟨5⟩ 2 (rowsOf pool) := by
  obtain ⟨pool, hrun, hpool⟩ := Service.exists_run
    (fun pool : MarketPool => Accepted (rowsOf pool) 2 202 0 ∧
      Accepted (rowsOf pool) 2 402 300000000 ∧ activeOrder (rowsOf pool) 2 = some 400)
    (show ((service ⟨5⟩).run (start sampleRows) ordersInTurn).any _ = true by decide +kernel)
  exact ⟨pool, hrun, hpool, create_order_guards (stored_of_check (by decide +kernel))
    (guarded_of_none (by decide +kernel) (by decide +kernel)) (by decide +kernel)
    (by decide +kernel) hrun⟩

/-- Both requests pass their guards before the first one locks the product. The second
    waits for the row, and commits its order all the same. -/
def ordersTogether : List MarketEvent :=
  [.start (.createOrder 2 (sampleOrder 10 none)), .start (.createOrder 2 (sampleOrder 10 none))] ++
    List.replicate 3 (sampleStep 0 []) ++ List.replicate 3 (sampleStep 1 []) ++
    List.replicate 2 (sampleStep 0 []) ++
    [sampleStep 0 [200], sampleStep 0 [201], sampleStep 0 [202], sampleStep 0 []] ++
    List.replicate 2 (sampleStep 1 []) ++
    [sampleStep 1 [300], sampleStep 1 [301], sampleStep 1 [302], sampleStep 1 []]

/-- The user then has two active orders, and two operations of one moment. -/
theorem create_order_race : ∃ pool : MarketPool, Stored sampleRows ∧ Guarded ⟨5⟩ 2 sampleRows ∧
    (service ⟨5⟩).passes (oneTime 2) (start sampleRows) ordersTogether = true ∧
    (service ⟨5⟩).run (start sampleRows) ordersTogether = some pool ∧
      HasActive (rowsOf pool) 2 200 ∧ HasActive (rowsOf pool) 2 300 ∧
      Accepted (rowsOf pool) 2 202 0 ∧ Accepted (rowsOf pool) 2 302 0 ∧
      ¬ Guarded ⟨5⟩ 2 (rowsOf pool) := by
  obtain ⟨pool, hrun, hfirst, hsecond, haccepted⟩ := Service.exists_run
    (fun pool : MarketPool =>
      (rowsOf pool).lookup (.order 200) = some (⟨2, .created, none, 14, 0⟩ : Order) ∧
      (rowsOf pool).lookup (.order 300) = some (⟨2, .created, none, 14, 0⟩ : Order) ∧
      Accepted (rowsOf pool) 2 202 0 ∧ Accepted (rowsOf pool) 2 302 0)
    (show ((service ⟨5⟩).run (start sampleRows) ordersTogether).any _ = true by decide +kernel)
  have hactive : HasActive (rowsOf pool) 2 200 := ⟨_, hfirst, rfl, rfl⟩
  have hactive' : HasActive (rowsOf pool) 2 300 := ⟨_, hsecond, rfl, rfl⟩
  refine ⟨pool, stored_of_check (by decide +kernel),
    guarded_of_none (by decide +kernel) (by decide +kernel), by decide +kernel, hrun, hactive,
    hactive', haccepted.1, haccepted.2, fun hguarded => ?_⟩
  have hsame := hguarded.active 200 300 hactive hactive'
  cases hsame

end SoaHomework.Marketplace
