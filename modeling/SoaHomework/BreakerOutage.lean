import Mathlib.Tactic.Ring
import SoaHomework.BreakerCalls
import SoaHomework.ServiceHistory

/-!
# The breaker in an outage

What the breaker is for: once it has tripped, and as long as no call succeeds, it lets
one call through for each `OpenTimeout`, however many are made, whatever else they
report and however late.
-/

namespace SoaHomework.GrpcClient

open Grpc StatementProgram

abbrev CallEvent := Event Unit (Except CallError Unit) Nat

variable {pool first final : CallPool} {event : CallEvent} {events : List CallEvent}
  {s s' : Shared} {since : Int} {n : Nat} {i : Nat}

/-- `Allow` has let a call through. -/
def letThrough : (op : CallOp) → CallRes op → Bool
  | .allow, allowed => allowed
  | _, _ => false

/-- A call has reported success. -/
def succeeded : (op : CallOp) → CallRes op → Bool
  | .onSuccess, _ => true
  | _, _ => false

/-- The breaker has tripped, and since the time `since` it has let `n` calls through. An
    open breaker lets the next one through only after as many timeouts. -/
structure Throttled (since : Int) (n : Nat) (s : Shared) : Prop where
  wellFormed : s.breaker.WellFormed
  tripped : s.breaker.state ≠ .closed
  elapsed : since ≤ s.clock
  passed : ((n : Int) - 1) * s.breaker.cfg.openTimeout ≤ s.clock - since
  next : s.breaker.state = .opened → n = 0 ∨
    n * s.breaker.cfg.openTimeout ≤ s.breaker.openUntil - since

theorem throttled_zero (hwell : s.breaker.WellFormed) (htripped : s.breaker.state ≠ .closed) :
    Throttled s.clock 0 s := by
  refine ⟨hwell, htripped, le_rfl, ?_, fun _ => Or.inl rfl⟩
  have htimeout := hwell.timeout
  simp only [Nat.cast_zero]
  omega

theorem Throttled.tick (h : Throttled since n s) (elapsed : Nat) :
    Throttled since n { s with clock := s.clock + elapsed } where
  wellFormed := h.wellFormed
  tripped := h.tripped
  elapsed := Int.le_trans h.elapsed (Int.le_add_of_nonneg_right (Int.natCast_nonneg _))
  passed := by
    have hpassed := h.passed
    dsimp only
    omega
  next := h.next

/-- `Allow` lets a call through when the open breaker's time has come. -/
theorem Throttled.allow (h : Throttled since n s) (outcome : Except CallError Unit)
    {allowed : Bool} (hexec : executeCall i .allow outcome s = some (allowed, s')) :
    Throttled since (n + allowed.toNat) s' := by
  obtain ⟨rfl, rfl⟩ := allow_progress outcome hexec
  have htimeout := h.wellFormed.timeout
  have hpassed := h.passed
  rcases allow_cases h.wellFormed s.clock with ⟨hclosed, _⟩ | ⟨hopened, htime, heq⟩ | ⟨_, heq⟩
  · exact absurd hclosed h.tripped
  · rw [heq]
    refine ⟨⟨by simp [Shared.letIn], h.wellFormed.threshold, htimeout⟩, by simp [Shared.letIn],
      h.elapsed, ?_, fun hstate => by simp [Shared.letIn] at hstate⟩
    have helapsed := h.elapsed
    simp only [Bool.toNat_true, Nat.cast_add, Nat.cast_one, add_sub_cancel_right, Shared.letIn,
      if_true]
    rcases h.next hopened with rfl | hnext
    · simp only [Nat.cast_zero, zero_mul]
      omega
    · omega
  · rw [heq]
    exact h

theorem Throttled.report (h : Throttled since n s) (err : CallError) :
    Throttled since n (s.report i (s.breaker.onFailure err s.clock)) := by
  have htransition := transition_of_perform h.wellFormed s.clock (.onFailure err)
  have htimeout := h.wellFormed.timeout
  have hpassed := h.passed
  simp only [CircuitBreaker.perform] at htransition
  generalize hafter : s.breaker.onFailure err s.clock = breaker at htransition ⊢
  have hwell := htransition.wellFormed h.wellFormed
  cases htransition with
  | ignore => exact ⟨hwell, h.tripped, h.elapsed, hpassed, h.next⟩
  | count _ hclosed => exact absurd hclosed h.tripped
  | trip _ hclosed => exact absurd hclosed h.tripped
  | reopen _ hhalf =>
      refine ⟨hwell, by simp [Shared.report], h.elapsed, hpassed, fun _ => Or.inr ?_⟩
      simp only [Shared.report]
      have hmul : ((n : Int) - 1) * s.breaker.cfg.openTimeout =
          n * s.breaker.cfg.openTimeout - s.breaker.cfg.openTimeout := by ring
      omega

/-- One step of the calls, none of which reports success. -/
theorem Throttled.step (h : Throttled since n pool.shared)
    (hnone : calls.marks succeeded pool event = none)
    (hnext : calls.next pool event = some final) :
    Throttled since (n + (calls.marks letThrough pool event).toList.length) final.shared := by
  cases Service.move_of_next hnext with
  | start request => exact h
  | @exec i choice request op next answer s hruns hexec =>
      have hprogram := Service.program?_eq_some.mpr ⟨request, hruns⟩
      simp only [Service.marks, hprogram, hexec, Option.bind_some] at hnone ⊢
      rw [Service.update_shared]
      cases op with
      | allow =>
          have hallowed := h.allow choice hexec
          cases answer with
          | true => simpa [letThrough] using hallowed
          | false => simpa [letThrough] using hallowed
      | attempt =>
          simp only [calls, executeCall, Option.some.injEq, Prod.mk.injEq] at hexec
          rw [← hexec.2]
          simpa [letThrough] using h
      | onSuccess => simp [succeeded] at hnone
      | onFailure err =>
          simp only [calls, executeCall, Option.some.injEq, Prod.mk.injEq] at hexec
          rw [← hexec.2]
          simpa [letThrough] using h.report err
  | @answer i choice request program result hruns houtcome =>
      have hprogram := Service.program?_eq_some.mpr ⟨request, hruns⟩
      rcases program with value | error | _
      · simp only [Service.marks, hprogram]
        exact h
      · simp only [Service.marks, hprogram]
        exact h
      · cases houtcome
  | stop hruns => exact h
  | outside hchange =>
      simp only [calls, Option.some.injEq] at hchange
      exact hchange ▸ h.tick _

theorem Throttled.run (h : Throttled since n pool.shared)
    (hnone : calls.marked succeeded pool events = [])
    (hrun : calls.run pool events = some final) :
    Throttled since (n + (calls.marked letThrough pool events).length) final.shared := by
  induction events generalizing pool n with
  | nil =>
      simp only [Service.run, Option.some.injEq] at hrun
      exact hrun ▸ h
  | cons event events ih =>
      simp only [Service.run, Option.bind_eq_some_iff] at hrun
      obtain ⟨middle, hnext, hrest⟩ := hrun
      simp only [Service.marked, hnext, List.append_eq_nil_iff, Option.toList_eq_nil_iff] at hnone
      have hfinal := ih (h.step hnone.1 hnext) hnone.2 hrest
      simpa only [Service.marked, hnext, List.length_append, Nat.add_assoc] using hfinal

/-! ## Reachable breakers -/

/-- A breaker of the client. -/
def Configured (cfg : CBConfig) (s : Shared) : Prop :=
  s.breaker.WellFormed ∧ s.breaker.cfg = cfg.normalize

theorem Configured.perform {cfg : CBConfig} (h : Configured cfg s) (call : Call) :
    (s.breaker.perform s.clock call).2.WellFormed ∧
      (s.breaker.perform s.clock call).2.cfg = cfg.normalize := by
  have htransition := transition_of_perform h.1 s.clock call
  exact ⟨htransition.wellFormed h.1, htransition.cfg.trans h.2⟩

theorem configured_steps {cfg : CBConfig} {clock : Int}
    (hsteps : calls.Steps Service.anyStep (Pool.initial (.start cfg clock)) pool) :
    Configured cfg pool.shared := by
  have hsound : (callDiscipline (Configured cfg) fun _ _ _ => True).Sound calls := by
    refine sound_calls (fun _ _ h => h) (fun i s s' outcome allowed h _ hexec => ?_)
      (fun i s _ h _ _ => ?_) fun i s err _ h _ _ => h.perform (.onFailure err)
    · obtain ⟨rfl, _⟩ := allow_progress outcome hexec
      split
      · exact h.perform .allow
      · exact h.perform .allow
    · exact h.perform .onSuccess
  have hallowed : calls.Steps (callDiscipline (Configured cfg) fun _ _ _ => True).Allowed
      (Pool.initial (.start cfg clock)) pool :=
    hsteps.mono fun _ _ _ => allowed_of_permitted fun _ _ _ => trivial
  exact (Discipline.holds_steps hsound hallowed (holds_start ⟨wellFormed_new cfg, rfl⟩)).inv

/-- While no call succeeds, a breaker that has tripped lets at most one call through and
    one more for each `OpenTimeout` that passes. -/
theorem outage_throttled {cfg : CBConfig} {clock : Int}
    (hreachable : calls.Steps Service.anyStep (Pool.initial (.start cfg clock)) first)
    (htripped : first.shared.breaker.state ≠ .closed)
    (hnone : calls.marked succeeded first events = [])
    (hrun : calls.run first events = some final) :
    final.shared.breaker.state ≠ .closed ∧
      (((calls.marked letThrough first events).length : Int) - 1) * cfg.normalize.openTimeout ≤
        final.shared.clock - first.shared.clock := by
  have hconfigured := configured_steps hreachable
  have hfinal := (throttled_zero hconfigured.1 htripped).run hnone hrun
  have hcfg := (configured_steps (hreachable.trans (Service.Steps.of_run events hrun))).2
  refine ⟨hfinal.tripped, ?_⟩
  have hpassed := hfinal.passed
  rwa [Nat.zero_add, hcfg] at hpassed

/-- The call that trips the breaker. -/
def trippingEvents : List CallEvent := wholeCall 0 (List.replicate 3 (.error unavailable))

/-- A probe fails, a call is refused, and the next probe is on its way. -/
def outageEvents : List CallEvent :=
  .outside 11 :: wholeCall 1 (List.replicate 3 (.error unavailable)) ++
    [.start (), .step 2 (.ok ()), .outside 11, .start (), .step 3 (.ok ())]

theorem outage_throttled_sample : ∃ first final : CallPool,
    calls.run (Pool.initial (.start ⟨1, 10⟩ 0)) trippingEvents = some first ∧
      calls.run first outageEvents = some final ∧
      calls.marked letThrough first outageEvents = [1, 3] ∧
      final.shared.breaker.state ≠ .closed ∧
      (((calls.marked letThrough first outageEvents).length : Int) - 1) *
        (CBConfig.normalize ⟨1, 10⟩).openTimeout ≤ final.shared.clock - first.shared.clock := by
  obtain ⟨first, hfirst, ⟨htripped, hnone, hmarked⟩, hrest⟩ := Service.exists_run
    (fun first : CallPool => (first.shared.breaker.state ≠ .closed ∧
        calls.marked succeeded first outageEvents = [] ∧
        calls.marked letThrough first outageEvents = [1, 3]) ∧
      (calls.run first outageEvents).isSome = true)
    (show (calls.run (Pool.initial (.start ⟨1, 10⟩ 0)) trippingEvents).any _ = true by decide)
  obtain ⟨final, hfinal⟩ := Option.isSome_iff_exists.mp hrest
  exact ⟨first, final, hfirst, hfinal, hmarked,
    outage_throttled (Service.Steps.of_run _ hfirst) htripped hnone hfinal⟩

end SoaHomework.GrpcClient
