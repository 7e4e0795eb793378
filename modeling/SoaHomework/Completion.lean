import Mathlib.Algebra.Order.BigOperators.Group.Finset
import SoaHomework.Interleaving

/-!
# Completing the requests that are running

When some running request can always take a step, all of them can be brought to their
answers, in as many steps as their programs have statements left (`Service.completes`).
-/

namespace StatementProgram

variable {Op : Type} {Res : Op → Type} {ε α β ρ χ η σ : Type}

/-! ## The length of a program -/

namespace Program

/-- No path through the program has more than `n` statements. -/
def AtMost : Program Op Res ε α → Nat → Prop
  | .ret _, _ => True
  | .fail _, _ => True
  | .step _ next, n => 0 < n ∧ ∀ answer, (next answer).AtMost (n - 1)

theorem AtMost.mono {p : Program Op Res ε α} {m n : Nat} (h : p.AtMost m) (hle : m ≤ n) :
    p.AtMost n := by
  induction p generalizing m n with
  | ret value => trivial
  | fail error => trivial
  | step op next ih =>
      exact ⟨Nat.lt_of_lt_of_le h.1 hle, fun answer =>
        ih answer (h.2 answer) (Nat.sub_le_sub_right hle 1)⟩

theorem atMost_raiseIf {failed : Bool} {error : ε} {f : Unit → Program Op Res ε α} {n : Nat}
    (hf : (f ()).AtMost n) : (raiseIf failed error >>= f).AtMost n := by
  cases failed with
  | true => trivial
  | false => exact hf

theorem atMost_bind {p : Program Op Res ε α} {f : α → Program Op Res ε β} {m n : Nat}
    (hp : p.AtMost m) (hf : ∀ value, (f value).AtMost n) : (p >>= f).AtMost (m + n) := by
  induction p generalizing m with
  | ret value => exact (hf value).mono (Nat.le_add_left n m)
  | fail error => trivial
  | step op next ih =>
      refine ⟨Nat.add_pos_left hp.1 n, fun answer => ?_⟩
      rw [Nat.sub_add_comm hp.1]
      exact ih answer (hp.2 answer)

end Program

/-! ## The steps that are left -/

namespace Pool

/-- The steps that request `i` has left when its program has at most `bounds i`
    statements: these and its answer. -/
def left (pool : Pool Op Res ε α ρ σ) (bounds : Nat → Nat) (i : Nat) : Nat :=
  if pool.isRunning i then bounds i + 1 else 0

def cost (pool : Pool Op Res ε α ρ σ) (bounds : Nat → Nat) : Nat :=
  ∑ i ∈ Finset.range pool.threads.length, pool.left bounds i

/-- The programs that are running are as short as `bounds` says. -/
def Bounded (pool : Pool Op Res ε α ρ σ) (bounds : Nat → Nat) : Prop :=
  ∀ i request program, pool.Runs i request program → program.AtMost (bounds i)

variable {pool : Pool Op Res ε α ρ σ} {bounds : Nat → Nat} {i : Nat} {request : ρ}
  {program : Program Op Res ε α}

theorem isRunning_of_runs (h : pool.Runs i request program) : pool.isRunning i = true := by
  rw [isRunning, Service.program?_eq_some.mpr ⟨request, h⟩]
  rfl

theorem runs_of_isRunning (h : pool.isRunning i = true) :
    ∃ request program, pool.Runs i request program := by
  obtain ⟨program, hprogram⟩ := Option.isSome_iff_exists.mp h
  obtain ⟨request, hruns⟩ := Service.program?_eq_some.mp hprogram
  exact ⟨request, program, hruns⟩

theorem left_of_other {status : Status Op Res ε α} {s : σ} {j : Nat} (hij : i ≠ j) :
    (pool.update i status s).left bounds j = pool.left bounds j := by
  rw [left, left, isRunning, isRunning, program?, program?, Service.update_other hij]

/-- Only the steps of request `i` become fewer. -/
theorem cost_update_lt (hruns : pool.Runs i request program) {status : Status Op Res ε α} {s : σ}
    {bounds' : Nat → Nat} (hothers : ∀ j, i ≠ j → bounds' j = bounds j)
    (hless : (pool.update i status s).left bounds' i < bounds i + 1) :
    (pool.update i status s).cost bounds' < pool.cost bounds := by
  have hi : (pool.update i status s).left bounds' i < pool.left bounds i := by
    rwa [left, left, isRunning_of_runs hruns, if_pos rfl] at *
  rw [cost, cost, Service.update_length]
  refine Finset.sum_lt_sum (fun j _ => ?_)
    ⟨i, Finset.mem_range.mpr (Service.lt_length_of_getElem hruns), hi⟩
  by_cases hij : i = j
  · exact hij ▸ Nat.le_of_lt hi
  · rw [left_of_other hij, left, left, hothers j hij]

theorem cost_le {n : Nat} (hbounds : ∀ i, bounds i ≤ n) :
    pool.cost bounds ≤ (n + 1) * pool.threads.length := by
  have hsum : pool.cost bounds ≤ ∑ _i ∈ Finset.range pool.threads.length, (n + 1) := by
    refine Finset.sum_le_sum fun i _ => ?_
    rw [left]
    split
    · exact Nat.succ_le_succ (hbounds i)
    · exact Nat.zero_le _
  rwa [Finset.sum_const_nat (m := n + 1) fun _ _ => rfl, Finset.card_range, Nat.mul_comm] at hsum

end Pool

namespace Service

variable {svc : Service Op Res ε α ρ χ η σ} {pool final : Pool Op Res ε α ρ σ}

/-- A step of a running request leaves fewer. -/
theorem next_cost {bounds : Nat → Nat} (hbounded : pool.Bounded bounds) {i : Nat} {choice : χ}
    (hnext : svc.next pool (.step i choice) = some final) :
    ∃ bounds', final.Bounded bounds' ∧ final.cost bounds' < pool.cost bounds := by
  cases move_of_next hnext with
  | @exec _ _ request op next answer s hruns _ =>
      obtain ⟨hpos, hatMost⟩ := hbounded i request _ hruns
      refine ⟨Function.update bounds i (bounds i - 1), fun j request' program hj => ?_,
        Pool.cost_update_lt hruns (fun j hij => Function.update_of_ne hij.symm _ _) ?_⟩
      · rcases thread_update hruns hj with ⟨rfl, rfl, hstatus⟩ | ⟨hij, hj'⟩
        · cases hstatus
          rw [Function.update_self]
          exact hatMost answer
        · rw [Function.update_of_ne (Ne.symm hij)]
          exact hbounded j request' program hj'
      · rw [Pool.left, Function.update_self]
        split
        · omega
        · omega
  | @answer _ _ request program result hruns _ =>
      refine ⟨bounds, fun j request' program' hj => ?_,
        Pool.cost_update_lt hruns (fun _ _ => rfl) ?_⟩
      · rcases thread_update hruns hj with ⟨_, _, hstatus⟩ | ⟨_, hj'⟩
        · cases hstatus
        · exact hbounded j request' program' hj'
      · have hstopped : (pool.update i (.answered result) (svc.close i pool.shared)).isRunning i =
            false := by
          rw [Pool.isRunning, Pool.program?, update_self hruns]
          rfl
        rw [Pool.left, hstopped]
        exact Nat.succ_pos _

theorem bounded_steps {allowed : Pool Op Res ε α ρ σ → Event ρ χ η → Prop} {n : Nat}
    (hhandler : ∀ request, (svc.handler request).AtMost n) {s : σ}
    (hsteps : svc.Steps allowed (Pool.initial s) pool) : pool.Bounded fun _ => n := by
  refine hsteps.invariant (P := fun pool => pool.Bounded fun _ => n)
    (fun middle event final hmiddle _ hnext => ?_) fun i request program hi => ?_
  · have hupdate : ∀ {i thread status s}, middle.threads[i]? = some thread →
        (∀ program, status = .running program → program.AtMost n) →
        (middle.update i status s).Bounded fun _ => n := by
      intro i thread status s hi hstatus j request program hj
      rcases thread_update hi hj with ⟨_, _, heq⟩ | ⟨_, hj'⟩
      · exact hstatus program heq.symm
      · exact hmiddle j request program hj'
    cases move_of_next hnext with
    | start request =>
        intro i request' program hi
        rcases thread_start hi with hi' | ⟨_, _, heq⟩
        · exact hmiddle i request' program hi'
        · cases heq
          exact hhandler request
    | @exec i _ request op next answer s hruns _ =>
        refine hupdate hruns fun program heq => ?_
        cases heq
        exact ((hmiddle i request _ hruns).2 answer).mono (Nat.sub_le n 1)
    | answer hruns _ => exact hupdate hruns fun program heq => by cases heq
    | stop hruns => exact hupdate hruns fun program heq => by cases heq
    | outside _ => exact hmiddle
  · cases hi

/-- A step stops no request. -/
theorem next_unstopped {i j : Nat} {choice : χ} {request : ρ} {status : Status Op Res ε α}
    (hnext : svc.next pool (.step i choice) = some final)
    (hj : pool.threads[j]? = some ⟨request, status⟩) (hstatus : status ≠ .stopped) :
    ∃ status', final.threads[j]? = some ⟨request, status'⟩ ∧ status' ≠ .stopped := by
  have hupdate : ∀ {thread status' s}, pool.threads[i]? = some thread →
      status' ≠ .stopped → ∃ status'', (pool.update i status' s).threads[j]? =
        some ⟨request, status''⟩ ∧ status'' ≠ .stopped := by
    intro thread status' s hi hne
    by_cases hij : i = j
    · subst hij
      obtain rfl := Option.some.inj (hi.symm.trans hj)
      exact ⟨status', update_self hj _ _, hne⟩
    · exact ⟨status, (update_other hij _ _).trans hj, hstatus⟩
  cases move_of_next hnext with
  | exec hruns _ => exact hupdate hruns (by simp)
  | answer hruns _ => exact hupdate hruns (by simp)

variable {good : Pool Op Res ε α ρ σ → Prop} {allowed : χ → Prop}

/-- The running requests can be completed when always one of them can take a step. -/
theorem completes (hadvance : ∀ pool, good pool → (∃ i, pool.isRunning i = true) →
      ∃ i choice final, allowed choice ∧ svc.next pool (.step i choice) = some final ∧ good final)
    {bounds : Nat → Nat} (hbounded : pool.Bounded bounds) (hgood : good pool) :
    ∃ events final, (∀ event ∈ events, ∃ i choice, event = .step i choice ∧ allowed choice) ∧
      svc.run pool events = some final ∧
      (∀ i request status, pool.threads[i]? = some ⟨request, status⟩ → status ≠ .stopped →
        ∃ result, final.Answered i request result) ∧
      events.length ≤ pool.cost bounds := by
  induction hn : pool.cost bounds using Nat.strongRecOn generalizing pool bounds with
  | _ n ih =>
      by_cases hrunning : ∃ i, pool.isRunning i = true
      · obtain ⟨i, choice, middle, hallowed, hnext, hmiddle⟩ := hadvance pool hgood hrunning
        obtain ⟨bounds', hbounded', hless⟩ := next_cost hbounded hnext
        obtain ⟨events, final, hsteps, hrun, hanswered, hlength⟩ :=
          ih _ (hn ▸ hless) hbounded' hmiddle rfl
        refine ⟨.step i choice :: events, final, ?_, ?_, fun j request status hj hstatus => ?_, ?_⟩
        · rintro event (_ | ⟨_, hevent⟩)
          · exact ⟨i, choice, rfl, hallowed⟩
          · exact hsteps event hevent
        · simp only [run, hnext, Option.bind_some, hrun]
        · obtain ⟨status', hj', hstatus'⟩ := next_unstopped hnext hj hstatus
          exact hanswered j request status' hj' hstatus'
        · exact Nat.le_trans (Nat.succ_le_succ hlength) (hn ▸ hless)
      · refine ⟨[], pool, fun event hevent => (by cases hevent), rfl,
          fun i request status hi hstatus => ?_, Nat.zero_le n⟩
        rcases status with program | result | _
        · exact absurd ⟨i, Pool.isRunning_of_runs hi⟩ hrunning
        · exact ⟨result, hi⟩
        · exact absurd rfl hstatus

end Service

end StatementProgram
