import Mathlib.Data.Finite.Defs
import Mathlib.Data.Set.Finite.Lemmas
import SoaHomework.Completion
import SoaHomework.FlightDeadlock

/-!
# Transactions can be completed

Only running requests hold locks, and of those that wait for each other one waits at
the lowest rank. So in every reachable state some running request can go on, and all
of them can be brought to their answers without a failure, a stop or a new request.
-/

namespace RowStore

variable {κ υ : Type} {β : κ → Type} [DecidableEq κ] [DecidableEq υ]
  {s s' : RowStore κ υ β} {i : Nat}

/-- The locks that are held. -/
def held (s : RowStore κ υ β) : Set (κ ⊕ υ) := {l | s.locks l ≠ none}

theorem acquire_held_finite {l : κ ⊕ υ} (h : s.acquire i l = some s') (hs : s.held.Finite) :
    s'.held.Finite := by
  refine (hs.insert l).subset fun l' hl' => ?_
  change s'.locks l' ≠ none at hl'
  rw [(acquire_spec h).2.2.1] at hl'
  by_cases hne : l' = l
  · exact Or.inl hne
  · rw [Function.update_of_ne hne] at hl'
    exact Or.inr hl'

omit [DecidableEq υ] in
theorem put_held (s : RowStore κ υ β) (i : Nat) (k : κ) (row : β k) :
    (s.put i k row).held = s.held := rfl

theorem lockAll_held_finite {ks : List κ} (h : s.lockAll i ks = some s') (hs : s.held.Finite) :
    s'.held.Finite := by
  induction ks generalizing s with
  | nil =>
      simp only [lockAll, Option.some.injEq] at h
      exact h ▸ hs
  | cons k ks ih =>
      simp only [lockAll, Option.bind_eq_some_iff] at h
      obtain ⟨⟨row, s₁⟩, hselect, hrest⟩ := h
      refine ih hrest ?_
      rcases selectForUpdate_cases hselect with ⟨_, _, rfl⟩ | ⟨_, _, _, hacquire⟩
      · exact hs
      · exact acquire_held_finite hacquire hs

theorem Access.held_finite {index : (k : κ) → β k → Option υ} (h : Access index i s s')
    (hs : s.held.Finite) : s'.held.Finite := by
  cases h with
  | none => exact hs
  | locked h => exact lockAll_held_finite h hs
  | updated _ h =>
      rcases update_cases h with ⟨_, _, rfl⟩ | ⟨_, _, _, hacquire, ⟨_, _, rfl⟩ | ⟨_, _, rfl⟩⟩
      · exact hs
      · exact acquire_held_finite hacquire hs
      · rw [put_held]
        exact acquire_held_finite hacquire hs
  | inserted _ h =>
      obtain ⟨s₁, _, _, hacquire, rfl⟩ := insertRow_cases h
      rw [put_held]
      exact acquire_held_finite hacquire hs
  | insertedUnique _ h =>
      rcases insert_cases h with ⟨_, rfl, _⟩ | ⟨s₁, s₂, _, _, _, hu, hk, _, rfl⟩
      · exact hs
      · rw [put_held]
        exact acquire_held_finite hk (acquire_held_finite hu hs)

omit [DecidableEq κ] [DecidableEq υ] in
theorem finish_held_finite {rows : AList β} (hs : s.held.Finite) :
    (s.finish i rows).held.Finite := by
  refine hs.subset fun l hl hnone => hl ?_
  simp [finish, hnone]

end RowStore

namespace SoaHomework.FlightService

open StatementProgram

variable {rows₀ : Rows} {pool final : FlightPool} {i : Nat}

/-! ## The locks of a reachable state -/

/-- Finitely many locks are held, and by requests that are running. -/
structure LiveLocks (pool : FlightPool) : Prop where
  finite : pool.shared.db.held.Finite
  running : ∀ l j, pool.shared.db.locks l = some j → pool.isRunning j = true

theorem LiveLocks.update (h : LiveLocks pool) {request : Request}
    {program : Program Statement Answer StoreError Reservation}
    (hruns : pool.Runs i request program)
    {status : Status Statement Answer StoreError Reservation} {s : State}
    (hfinite : s.db.held.Finite)
    (hothers : ∀ l j, i ≠ j → s.db.locks l = some j → pool.shared.db.locks l = some j)
    (hself : ∀ l, s.db.locks l = some i → ∃ program', status = .running program') :
    LiveLocks (pool.update i status s) := by
  refine ⟨hfinite, fun l j hl => ?_⟩
  by_cases hij : i = j
  · subst hij
    obtain ⟨program', rfl⟩ := hself l hl
    exact Pool.isRunning_of_runs (Service.update_self hruns _ _)
  · obtain ⟨request', program', hj⟩ := Pool.runs_of_isRunning (h.running l j (hothers l j hij hl))
    exact Pool.isRunning_of_runs ((Service.update_other hij status s).trans hj)

theorem LiveLocks.close (h : LiveLocks pool) {request : Request}
    {program : Program Statement Answer StoreError Reservation}
    (hruns : pool.Runs i request program)
    (status : Status Statement Answer StoreError Reservation) :
    LiveLocks (pool.update i status (service.close i pool.shared)) := by
  refine h.update hruns (RowStore.finish_held_finite h.finite) (fun l j hij hl => ?_)
    fun l hl => absurd hl ((RowStore.finish_idle _ _ _).locks l)
  exact (RowStore.finish_locks hij l).mp hl

theorem LiveLocks.next (h : LiveLocks pool) {event : Event Request Choice StatusChange}
    (hnext : service.next pool event = some final) : LiveLocks final := by
  cases Service.move_of_next hnext with
  | start request =>
      refine ⟨h.finite, fun l j hl => ?_⟩
      obtain ⟨request', program', hj⟩ := Pool.runs_of_isRunning (h.running l j hl)
      exact Pool.isRunning_of_runs
        ((List.getElem?_append_left (Service.lt_length_of_getElem hj)).trans hj)
  | @exec i choice request statement next answer s hruns hexec =>
      refine h.update hruns ?_ (fun l j hij => (execute_sameLocks hij hexec l).mp)
        fun _ _ => ⟨_, rfl⟩
      by_cases hcommit : statement = .commit
      · subst hcommit
        rcases execute_commit hexec with rfl | hdb
        · exact h.finite
        · rw [hdb]
          exact RowStore.finish_held_finite h.finite
      · exact (execute_access hexec hcommit).1.held_finite h.finite
  | answer hruns _ => exact h.close hruns _
  | stop hruns => exact h.close hruns _
  | outside hchange =>
      have hlocks := changeStatus_locks hchange
      refine ⟨?_, fun l j hl => h.running l j ?_⟩
      · rw [RowStore.held, hlocks]
        exact h.finite
      · rwa [hlocks] at hl

theorem liveLocks_of_steps
    (hsteps : service.Steps Service.anyStep (Pool.initial (State.ofRows rows₀)) pool) :
    LiveLocks pool := by
  refine hsteps.invariant (fun _ _ _ hpool _ hnext => hpool.next hnext) ⟨?_, fun l j hl => ?_⟩
  · exact Set.Finite.subset Set.finite_empty fun l hl => absurd rfl hl
  · cases hl

/-- A key for `gen_random_uuid()`. -/
theorem LiveLocks.exists_fresh (h : LiveLocks pool) : ∃ generated,
    (.reservation generated : Key) ∉ pool.shared.db.rows ∧
      pool.shared.db.locks (.inl (.reservation generated)) = none := by
  have hkey : Function.Injective fun g : Uuid => (.reservation g : Key) :=
    fun _ _ heq => Key.reservation.inj heq
  have hlock : Function.Injective fun g : Uuid => (.inl (.reservation g) : Key ⊕ Uuid) :=
    fun _ _ heq => hkey (Sum.inl.inj heq)
  have hrows : {k : Key | k ∈ pool.shared.db.rows}.Finite :=
    pool.shared.db.rows.keys.finite_toSet
  obtain ⟨generated, hfresh⟩ := ((hrows.preimage hkey.injOn).union
    (h.finite.preimage hlock.injOn)).exists_notMem
  exact ⟨generated, fun hmem => hfresh (Or.inl hmem),
    Classical.not_not.mp fun hne => hfresh (Or.inr hne)⟩

/-! ## Some request can go on -/

/-- A request that waits for nobody executes its statement. -/
theorem exists_next (hlive : LiveLocks pool) {request : Request}
    {program : Program Statement Answer StoreError Reservation}
    (hruns : pool.Runs i request program) (hfree : ∀ j, ¬ WaitsFor pool i j) :
    ∃ generated final, service.next pool (.step i (.proceed generated)) = some final := by
  obtain ⟨generated, hfresh, hunlocked⟩ := hlive.exists_fresh
  have hprogram := Service.program?_eq_some.mpr ⟨request, hruns⟩
  refine ⟨generated, Option.isSome_iff_exists.mp ?_⟩
  cases program with
  | ret value => simp [Service.next, hprogram, Program.outcome?]
  | fail error => simp [Service.next, hprogram, Program.outcome?]
  | step statement next =>
      have hsome : proceed i generated pool.shared statement ≠ none := by
        intro hnone
        obtain ⟨j, hblocks⟩ := (proceed_eq_none hfresh hunlocked).mp hnone
        exact hfree j ⟨request, statement, next, hruns, hblocks⟩
      obtain ⟨result, hresult⟩ := Option.ne_none_iff_exists'.mp hsome
      have hexec : service.exec i statement (.proceed generated) pool.shared = some result :=
        hresult
      simp [Service.next, hprogram, hexec]

/-- The request that waits at the lowest rank, or the one it waits for. -/
theorem exists_free
    (hsteps : service.Steps Service.anyStep (Pool.initial (State.ofRows rows₀)) pool)
    (hrunning : ∃ i, pool.isRunning i = true) :
    ∃ i, pool.isRunning i = true ∧ ∀ j, ¬ WaitsFor pool i j := by
  have hlive := liveLocks_of_steps hsteps
  obtain ⟨i, hi, hlowest⟩ : ∃ i, pool.isRunning i = true ∧
      ∀ j, pool.isRunning j = true → rankOf pool i ≤ rankOf pool j := by
    obtain ⟨i, hi, hmin⟩ := (InvImage.wf (rankOf pool) Nat.lt_wfRel.wf).has_min
      {i | pool.isRunning i = true} hrunning
    exact ⟨i, hi, fun j hj => Nat.le_of_not_lt (hmin j hj)⟩
  by_cases hwaits : ∃ j, WaitsFor pool i j
  · obtain ⟨j, request, statement, next, hruns, hblocks⟩ := hwaits
    obtain ⟨l, hl, hwithheld⟩ := hblocks
    have hj := hlive.running l j hwithheld.1
    refine ⟨j, hj, ?_⟩
    rintro k ⟨request', statement', next', hruns', hblocked⟩
    have hless := waitingRank_lt (holding_of_steps hsteps hruns) (holding_of_steps hsteps hruns')
      ⟨l, hl, hwithheld⟩ hblocked
    rw [← rankOf_of_runs hruns, ← rankOf_of_runs hruns'] at hless
    exact absurd (hlowest j hj) (Nat.not_le.mpr hless)
  · exact ⟨i, hi, fun j hj => hwaits ⟨j, hj⟩⟩

/-! ## Completion -/

theorem atMost_query (statement : Statement) : (query statement).AtMost 1 := by
  refine ⟨Nat.one_pos, fun answer => ?_⟩
  cases answer with
  | ok result => trivial
  | error error => trivial

theorem atMost_handle (request : Request) : (handle request).AtMost 5 := by
  cases request with
  | reserveSeats flightID bookingID seatCount positive =>
      refine Program.atMost_bind (m := 1) (n := 4) (atMost_query _) fun found => ?_
      rcases found with _ | ⟨available, status⟩
      · trivial
      refine Program.atMost_raiseIf ?_
      refine Program.atMost_raiseIf ?_
      refine Program.atMost_bind (m := 1) (n := 3) (atMost_query _) fun existing => ?_
      refine Program.atMost_raiseIf ?_
      refine Program.atMost_bind (m := 1) (n := 2) (atMost_query _) fun _ => ?_
      refine Program.atMost_bind (m := 1) (n := 1) (atMost_query _) fun r => ?_
      exact Program.atMost_bind (m := 1) (n := 0) (atMost_query _) fun _ => trivial
  | releaseReservation bookingID =>
      refine Program.atMost_bind (m := 1) (n := 4) (atMost_query _) fun found => ?_
      rcases found with _ | ⟨id, r⟩
      · trivial
      refine Program.atMost_raiseIf ?_
      refine Program.atMost_bind (m := 1) (n := 3) (atMost_query _) fun _ => ?_
      refine Program.atMost_bind (m := 1) (n := 2) (atMost_query _) fun marked => ?_
      exact Program.atMost_bind (m := 1) (n := 1) (atMost_query _) fun _ => trivial

/-- Every request can be completed. From every reachable state the requests that are
    running can all be answered, one statement after the other in some order, none of
    them failing or being stopped, in at most six steps for each. -/
theorem requests_complete
    (hsteps : service.Steps Service.anyStep (Pool.initial (State.ofRows rows₀)) pool) :
    ∃ events final, (∀ event ∈ events, ∃ i generated, event = .step i (.proceed generated)) ∧
      service.run pool events = some final ∧
      (∀ i request program, pool.Runs i request program →
        ∃ result, final.Answered i request result) ∧
      events.length ≤ 6 * pool.threads.length := by
  have hadvance : ∀ middle : FlightPool,
      service.Steps Service.anyStep (Pool.initial (State.ofRows rows₀)) middle →
      (∃ i, middle.isRunning i = true) → ∃ i choice final,
        (∃ generated, choice = .proceed generated) ∧
          service.next middle (.step i choice) = some final ∧
          service.Steps Service.anyStep (Pool.initial (State.ofRows rows₀)) final := by
    intro middle hmiddle hrunning
    obtain ⟨i, hi, hfree⟩ := exists_free hmiddle hrunning
    obtain ⟨request, program, hruns⟩ := Pool.runs_of_isRunning hi
    obtain ⟨generated, final, hnext⟩ := exists_next (liveLocks_of_steps hmiddle) hruns hfree
    exact ⟨i, .proceed generated, final, ⟨generated, rfl⟩, hnext, .tail _ hmiddle trivial hnext⟩
  obtain ⟨events, final, hevents, hrun, hanswered, hlength⟩ :=
    Service.completes hadvance (Service.bounded_steps atMost_handle hsteps) hsteps
  refine ⟨events, final, fun event hevent => ?_, hrun, fun i request program hruns =>
    hanswered i request _ hruns (by simp), Nat.le_trans hlength (Pool.cost_le fun _ => le_rfl)⟩
  obtain ⟨i, _, rfl, generated, rfl⟩ := hevents event hevent
  exact ⟨i, generated, rfl⟩

theorem requests_complete_sample : ∃ pool : FlightPool,
    service.run (Pool.initial (State.ofRows waitingRows)) waitingEvents = some pool ∧
      ∃ events final, (∀ event ∈ events, ∃ i generated, event = .step i (.proceed generated)) ∧
        service.run pool events = some final ∧
        (∀ i request program, pool.Runs i request program →
          ∃ result, final.Answered i request result) ∧
        events.length ≤ 6 * pool.threads.length := by
  have hrun : (service.run (Pool.initial (State.ofRows waitingRows)) waitingEvents).isSome := by
    decide +kernel
  exact ⟨_, (Option.some_get hrun).symm,
    requests_complete (Service.Steps.of_run waitingEvents (Option.some_get hrun).symm)⟩

end SoaHomework.FlightService
