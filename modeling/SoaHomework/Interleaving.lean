import SoaHomework.StatementProgram

/-!
# Interleaved requests

A service runs one program for each request. The programs share a state and
are interleaved at statement granularity: an event of a run starts a request,
executes the next statement of a running one, stops a running one in the
middle, or is a change made from outside. A statement that cannot be executed
now, because another request holds a lock it needs, has no next state.
-/

namespace StatementProgram

/-- A service over the shared state `σ`. Requests have type `ρ`. What a
    statement does may depend on a choice `χ` of its environment (a generated
    key, the fate of a message), and `η` are the changes made from outside. -/
structure Service (Op : Type) (Res : Op → Type) (ε α ρ χ η σ : Type) where
  handler : ρ → Program Op Res ε α
  exec : Nat → (op : Op) → χ → σ → Option (Res op × σ)
  /-- What ending request `i` does, whether it answered or was stopped. -/
  close : Nat → σ → σ
  outside : η → σ → Option σ

inductive Status (Op : Type) (Res : Op → Type) (ε α : Type) : Type where
  | running (program : Program Op Res ε α)
  | answered (result : Except ε α)
  | stopped

structure Thread (Op : Type) (Res : Op → Type) (ε α ρ : Type) : Type where
  request : ρ
  status : Status Op Res ε α

/-- The shared state together with every request made so far. A request is
    named by its position. -/
structure Pool (Op : Type) (Res : Op → Type) (ε α ρ σ : Type) : Type where
  shared : σ
  threads : List (Thread Op Res ε α ρ)

inductive Event (ρ χ η : Type) : Type where
  | start (request : ρ)
  | step (i : Nat) (choice : χ)
  | stop (i : Nat)
  | outside (change : η)

variable {Op : Type} {Res : Op → Type} {ε α ρ χ η σ : Type}

/-- The pool with no request. -/
def Pool.initial (s : σ) : Pool Op Res ε α ρ σ := ⟨s, []⟩

def Pool.program? (pool : Pool Op Res ε α ρ σ) (i : Nat) : Option (Program Op Res ε α) :=
  match pool.threads[i]? with
  | some ⟨_, .running program⟩ => some program
  | _ => none

/-- Request `i` is running `program`. -/
abbrev Pool.Runs (pool : Pool Op Res ε α ρ σ) (i : Nat) (request : ρ)
    (program : Program Op Res ε α) : Prop :=
  pool.threads[i]? = some ⟨request, .running program⟩

/-- Request `i` has been answered with `result`. -/
abbrev Pool.Answered (pool : Pool Op Res ε α ρ σ) (i : Nat) (request : ρ)
    (result : Except ε α) : Prop :=
  pool.threads[i]? = some ⟨request, .answered result⟩

/-- The request and the result of an answered thread. -/
def Pool.answer? (pool : Pool Op Res ε α ρ σ) (i : Nat) : Option (ρ × Except ε α) :=
  match pool.threads[i]? with
  | some ⟨request, .answered result⟩ => some (request, result)
  | _ => none

def Pool.isRunning (pool : Pool Op Res ε α ρ σ) (i : Nat) : Bool :=
  (pool.program? i).isSome

/-- Request `i` reaches `status` and the shared state becomes `s`. -/
def Pool.update (pool : Pool Op Res ε α ρ σ) (i : Nat) (status : Status Op Res ε α)
    (s : σ) : Pool Op Res ε α ρ σ :=
  ⟨s, pool.threads.modify i fun thread => { thread with status := status }⟩

namespace Service

variable (svc : Service Op Res ε α ρ χ η σ)

def next (pool : Pool Op Res ε α ρ σ) : Event ρ χ η → Option (Pool Op Res ε α ρ σ)
  | .start request =>
      some ⟨pool.shared, pool.threads ++ [⟨request, .running (svc.handler request)⟩]⟩
  | .step i choice =>
      match pool.program? i with
      | some (.step op next) =>
          (svc.exec i op choice pool.shared).map fun result =>
            pool.update i (.running (next result.1)) result.2
      | some program =>
          program.outcome?.map fun result =>
            pool.update i (.answered result) (svc.close i pool.shared)
      | none => none
  | .stop i =>
      if pool.isRunning i then some (pool.update i .stopped (svc.close i pool.shared))
      else none
  | .outside change =>
      (svc.outside change pool.shared).map fun s => ⟨s, pool.threads⟩

def run (pool : Pool Op Res ε α ρ σ) :
    List (Event ρ χ η) → Option (Pool Op Res ε α ρ σ)
  | [] => some pool
  | event :: events => (svc.next pool event).bind fun pool' => run pool' events

/-- Every step of the run passes a check. -/
def passes (check : Pool Op Res ε α ρ σ → Event ρ χ η → Bool) (pool : Pool Op Res ε α ρ σ) :
    List (Event ρ χ η) → Bool
  | [] => true
  | event :: events => check pool event &&
      match svc.next pool event with
      | some pool' => passes check pool' events
      | none => true

/-- The runs all of whose steps meet `allowed`. -/
inductive Steps (allowed : Pool Op Res ε α ρ σ → Event ρ χ η → Prop) :
    Pool Op Res ε α ρ σ → Pool Op Res ε α ρ σ → Prop where
  | refl (pool) : Steps allowed pool pool
  | tail {pool middle final} (event : Event ρ χ η) :
      Steps allowed pool middle → allowed middle event →
      svc.next middle event = some final → Steps allowed pool final

/-- No restriction on the steps of a run. -/
def anyStep (_ : Pool Op Res ε α ρ σ) (_ : Event ρ χ η) : Prop := True

variable {svc} {allowed allowed' : Pool Op Res ε α ρ σ → Event ρ χ η → Prop}

theorem Steps.trans {first middle final : Pool Op Res ε α ρ σ}
    (h₁ : svc.Steps allowed first middle) (h₂ : svc.Steps allowed middle final) :
    svc.Steps allowed first final := by
  induction h₂ with
  | refl => exact h₁
  | tail event _ hallowed hnext ih => exact .tail event ih hallowed hnext

theorem Steps.single {pool final : Pool Op Res ε α ρ σ} (event : Event ρ χ η)
    (hallowed : allowed pool event) (hnext : svc.next pool event = some final) :
    svc.Steps allowed pool final :=
  .tail event (.refl pool) hallowed hnext

theorem Steps.mono (himp : ∀ pool event, allowed pool event → allowed' pool event)
    {first final : Pool Op Res ε α ρ σ} (h : svc.Steps allowed first final) :
    svc.Steps allowed' first final := by
  induction h with
  | refl => exact .refl _
  | tail event _ hallowed hnext ih => exact .tail event ih (himp _ _ hallowed) hnext

/-- A property that holds first and survives every allowed step holds
    throughout the run. -/
theorem Steps.invariant {P : Pool Op Res ε α ρ σ → Prop}
    (hstep : ∀ pool event final, P pool → allowed pool event →
      svc.next pool event = some final → P final)
    {first final : Pool Op Res ε α ρ σ} (h : svc.Steps allowed first final)
    (hfirst : P first) : P final := by
  induction h with
  | refl => exact hfirst
  | tail event _ hallowed hnext ih => exact hstep _ event _ ih hallowed hnext

/-- A property that survives every step that passes the check holds at the end
    of a run. -/
theorem run_invariant {P : Pool Op Res ε α ρ σ → Prop}
    {check : Pool Op Res ε α ρ σ → Event ρ χ η → Bool}
    (hstep : ∀ pool event final, P pool → check pool event = true →
      svc.next pool event = some final → P final)
    {first final : Pool Op Res ε α ρ σ} {events : List (Event ρ χ η)} (hfirst : P first)
    (hpasses : svc.passes check first events = true) (h : svc.run first events = some final) :
    P final := by
  induction events generalizing first with
  | nil =>
      simp only [run, Option.some.injEq] at h
      exact h ▸ hfirst
  | cons event events ih =>
      simp only [run, Option.bind_eq_some_iff] at h
      obtain ⟨middle, hnext, hrest⟩ := h
      simp only [passes, hnext, Bool.and_eq_true] at hpasses
      exact ih (hstep first event middle hfirst hpasses.1 hnext) hpasses.2 hrest

/-- A run that ends in a pool with a property that can be decided. -/
theorem exists_run (P : Pool Op Res ε α ρ σ → Prop) [DecidablePred P]
    {first : Pool Op Res ε α ρ σ} {events : List (Event ρ χ η)}
    (h : ((svc.run first events).any fun pool => decide (P pool)) = true) :
    ∃ pool, svc.run first events = some pool ∧ P pool := by
  obtain ⟨pool, hrun, hpool⟩ := (Option.any_eq_true _ _).mp h
  exact ⟨pool, hrun, of_decide_eq_true hpool⟩

/-- Steps that pass two checks pass both. -/
theorem passes_and {check check' : Pool Op Res ε α ρ σ → Event ρ χ η → Bool}
    {first : Pool Op Res ε α ρ σ} {events : List (Event ρ χ η)}
    (h : svc.passes check first events = true) (h' : svc.passes check' first events = true) :
    svc.passes (fun pool event => check pool event && check' pool event) first events = true := by
  induction events generalizing first with
  | nil => rfl
  | cons event events ih =>
      simp only [passes, Bool.and_eq_true] at h h' ⊢
      refine ⟨⟨h.1, h'.1⟩, ?_⟩
      cases hnext : svc.next first event with
      | none => rfl
      | some middle =>
          simp only [hnext] at h h'
          exact ih h.2 h'.2

theorem passes_mono {check check' : Pool Op Res ε α ρ σ → Event ρ χ η → Bool}
    (himp : ∀ pool event, check pool event = true → check' pool event = true)
    {first : Pool Op Res ε α ρ σ} {events : List (Event ρ χ η)}
    (h : svc.passes check first events = true) : svc.passes check' first events = true := by
  induction events generalizing first with
  | nil => rfl
  | cons event events ih =>
      simp only [passes, Bool.and_eq_true] at h ⊢
      refine ⟨himp _ _ h.1, ?_⟩
      cases hnext : svc.next first event with
      | none => rfl
      | some middle =>
          simp only [hnext] at h
          exact ih h.2

/-- A check of the events alone. -/
theorem passes_of_all {check : Event ρ χ η → Bool} {events : List (Event ρ χ η)}
    (h : events.all check = true) (first : Pool Op Res ε α ρ σ) :
    svc.passes (fun _ event => check event) first events = true := by
  induction events generalizing first with
  | nil => rfl
  | cons event events ih =>
      simp only [List.all_cons, Bool.and_eq_true] at h
      simp only [passes, Bool.and_eq_true]
      refine ⟨h.1, ?_⟩
      cases svc.next first event with
      | none => rfl
      | some middle => exact ih h.2 middle

theorem passes_true (first : Pool Op Res ε α ρ σ) (events : List (Event ρ χ η)) :
    svc.passes (fun _ _ => true) first events = true := by
  induction events generalizing first with
  | nil => rfl
  | cons event events ih =>
      simp only [passes, Bool.true_and]
      cases svc.next first event with
      | none => rfl
      | some pool => exact ih pool

theorem Steps.of_run_checked (check : Pool Op Res ε α ρ σ → Event ρ χ η → Bool)
    (hcheck : ∀ pool event, check pool event = true → allowed pool event)
    {first final : Pool Op Res ε α ρ σ} (events : List (Event ρ χ η))
    (hpasses : svc.passes check first events = true)
    (h : svc.run first events = some final) : svc.Steps allowed first final := by
  induction events generalizing first with
  | nil =>
      simp only [run, Option.some.injEq] at h
      exact h ▸ .refl first
  | cons event events ih =>
      simp only [run, Option.bind_eq_some_iff] at h
      obtain ⟨middle, hnext, hrest⟩ := h
      simp only [passes, hnext, Bool.and_eq_true] at hpasses
      exact (Steps.single event (hcheck first event hpasses.1) hnext).trans
        (ih hpasses.2 hrest)

theorem Steps.of_run {first final : Pool Op Res ε α ρ σ} (events : List (Event ρ χ η))
    (h : svc.run first events = some final) : svc.Steps anyStep first final :=
  of_run_checked (fun _ _ => true) (fun _ _ _ => trivial) events (passes_true first events) h

theorem not_runs {pool : Pool Op Res ε α ρ σ}
    (h : ∀ i < pool.threads.length, pool.isRunning i = false) (i : Nat) (request : ρ)
    (program : Program Op Res ε α) : ¬ pool.Runs i request program := by
  intro hruns
  obtain ⟨hlt, _⟩ := List.getElem?_eq_some_iff.mp hruns
  have hrunning := h i hlt
  simp [Pool.isRunning, Pool.program?, hruns] at hrunning

/-! ## What one step can do -/

theorem program?_eq_some {pool : Pool Op Res ε α ρ σ} {i : Nat}
    {program : Program Op Res ε α} :
    pool.program? i = some program ↔
      ∃ request, pool.Runs i request program := by
  unfold Pool.program?
  constructor
  · intro h
    split at h
    · rename_i request running heq
      simp only [Option.some.injEq] at h
      exact ⟨request, h ▸ heq⟩
    · cases h
  · rintro ⟨request, h⟩
    simp only [h]

theorem answered_of_answer? {pool : Pool Op Res ε α ρ σ} {i : Nat} {request : ρ}
    {result : Except ε α} (h : pool.answer? i = some (request, result)) :
    pool.Answered i request result := by
  unfold Pool.answer? at h
  split at h
  · rename_i heq
    cases h
    exact heq
  · cases h

theorem lt_length_of_getElem {pool : Pool Op Res ε α ρ σ} {i : Nat}
    {thread : Thread Op Res ε α ρ} (h : pool.threads[i]? = some thread) :
    i < pool.threads.length := by
  obtain ⟨hlt, _⟩ := List.getElem?_eq_some_iff.mp h
  exact hlt

@[simp] theorem initial_threads (s : σ) :
    (Pool.initial s : Pool Op Res ε α ρ σ).threads = [] := rfl

@[simp] theorem update_shared (pool : Pool Op Res ε α ρ σ) (i : Nat)
    (status : Status Op Res ε α) (s : σ) : (pool.update i status s).shared = s := rfl

@[simp] theorem update_length (pool : Pool Op Res ε α ρ σ) (i : Nat)
    (status : Status Op Res ε α) (s : σ) :
    (pool.update i status s).threads.length = pool.threads.length := by
  simp [Pool.update]

theorem update_self {pool : Pool Op Res ε α ρ σ} {i : Nat}
    {thread : Thread Op Res ε α ρ} (h : pool.threads[i]? = some thread)
    (status : Status Op Res ε α) (s : σ) :
    (pool.update i status s).threads[i]? = some ⟨thread.request, status⟩ := by
  simp [Pool.update, h]

theorem update_other {pool : Pool Op Res ε α ρ σ} {i j : Nat} (h : i ≠ j)
    (status : Status Op Res ε α) (s : σ) :
    (pool.update i status s).threads[j]? = pool.threads[j]? := by
  simp [Pool.update, h]

/-- A request other than `i` is left as it was by an update of request `i`. -/
theorem thread_update {pool : Pool Op Res ε α ρ σ} {i j : Nat}
    {status status' : Status Op Res ε α} {s : σ} {thread : Thread Op Res ε α ρ} {request : ρ}
    (hi : pool.threads[i]? = some thread)
    (h : (pool.update i status s).threads[j]? = some ⟨request, status'⟩) :
    (i = j ∧ request = thread.request ∧ status' = status) ∨
      (i ≠ j ∧ pool.threads[j]? = some ⟨request, status'⟩) := by
  by_cases hij : i = j
  · subst hij
    rw [update_self hi] at h
    simp only [Option.some.injEq, Thread.mk.injEq] at h
    exact Or.inl ⟨rfl, h.1.symm, h.2.symm⟩
  · rw [update_other hij] at h
    exact Or.inr ⟨hij, h⟩

/-- A request that starts is the last one. -/
theorem thread_start {pool : Pool Op Res ε α ρ σ} {i : Nat} {request request' : ρ}
    {program : Program Op Res ε α} {status : Status Op Res ε α}
    (h : (pool.threads ++ [⟨request, .running program⟩])[i]? = some ⟨request', status⟩) :
    pool.threads[i]? = some ⟨request', status⟩ ∨
      (i = pool.threads.length ∧ request' = request ∧ status = .running program) := by
  rcases Nat.lt_trichotomy i pool.threads.length with hlt | heq | hgt
  · rw [List.getElem?_append_left hlt] at h
    exact Or.inl h
  · subst heq
    simp only [List.getElem?_concat_length, Option.some.injEq, Thread.mk.injEq] at h
    exact Or.inr ⟨rfl, h.1.symm, h.2.symm⟩
  · rw [List.getElem?_eq_none (by simp; omega)] at h
    cases h

theorem runs_unique {pool : Pool Op Res ε α ρ σ} {i : Nat} {request request' : ρ}
    {program program' : Program Op Res ε α} (h : pool.Runs i request program)
    (h' : pool.Runs i request' program') : request = request' ∧ program = program' := by
  rw [Pool.Runs] at h h'
  rw [h, Option.some.injEq, Thread.mk.injEq, Status.running.injEq] at h'
  exact h'

/-- The five kinds of step. -/
inductive Move (svc : Service Op Res ε α ρ χ η σ) (pool : Pool Op Res ε α ρ σ) :
    Event ρ χ η → Pool Op Res ε α ρ σ → Prop where
  | start (request : ρ) :
      Move svc pool (.start request)
        ⟨pool.shared, pool.threads ++ [⟨request, .running (svc.handler request)⟩]⟩
  | exec {i choice request op next answer s}
      (hthread : pool.Runs i request (.step op next))
      (hexec : svc.exec i op choice pool.shared = some (answer, s)) :
      Move svc pool (.step i choice) (pool.update i (.running (next answer)) s)
  | answer {i choice request program result}
      (hthread : pool.Runs i request program)
      (houtcome : program.outcome? = some result) :
      Move svc pool (.step i choice)
        (pool.update i (.answered result) (svc.close i pool.shared))
  | stop {i request program}
      (hthread : pool.Runs i request program) :
      Move svc pool (.stop i) (pool.update i .stopped (svc.close i pool.shared))
  | outside {change s} (hchange : svc.outside change pool.shared = some s) :
      Move svc pool (.outside change) ⟨s, pool.threads⟩

theorem move_of_next {pool final : Pool Op Res ε α ρ σ} {event : Event ρ χ η}
    (h : svc.next pool event = some final) : svc.Move pool event final := by
  cases event with
  | start request =>
      simp only [next, Option.some.injEq] at h
      exact h ▸ .start request
  | step i choice =>
      simp only [next] at h
      split at h
      · rename_i op next hprogram
        obtain ⟨request, hthread⟩ := program?_eq_some.mp hprogram
        simp only [Option.map_eq_some_iff] at h
        obtain ⟨⟨answer, s⟩, hexec, rfl⟩ := h
        exact .exec hthread hexec
      · rename_i program hprogram
        obtain ⟨request, hthread⟩ := program?_eq_some.mp hprogram
        simp only [Option.map_eq_some_iff] at h
        obtain ⟨result, houtcome, rfl⟩ := h
        exact .answer hthread houtcome
      · cases h
  | stop i =>
      simp only [next] at h
      by_cases hrunning : pool.isRunning i = true
      · rw [if_pos hrunning, Option.some.injEq] at h
        obtain ⟨program, hprogram⟩ := Option.isSome_iff_exists.mp hrunning
        obtain ⟨request, hthread⟩ := program?_eq_some.mp hprogram
        exact h ▸ .stop hthread
      · rw [if_neg hrunning] at h
        cases h
  | outside change =>
      simp only [next, Option.map_eq_some_iff] at h
      obtain ⟨s, hchange, rfl⟩ := h
      exact .outside hchange

/-- A request that is running after a step was running before, or has just been
    started. -/
theorem runs_of_next {pool final : Pool Op Res ε α ρ σ} {event : Event ρ χ η}
    (h : svc.next pool event = some final) {j : Nat} {request : ρ}
    {program : Program Op Res ε α} (hruns : final.Runs j request program) :
    (∃ before, pool.Runs j request before) ∨
      (event = .start request ∧ j = pool.threads.length) := by
  have hupdate : ∀ {i request' before status s}, pool.Runs i request' before →
      (pool.update i status s).Runs j request program → ∃ before, pool.Runs j request before := by
    intro i request' before status s hi hj
    rcases thread_update hi hj with ⟨rfl, rfl, _⟩ | ⟨_, hj'⟩
    · exact ⟨before, hi⟩
    · exact ⟨program, hj'⟩
  cases move_of_next h with
  | start request' =>
      rcases thread_start hruns with hbefore | ⟨hlength, rfl, _⟩
      · exact Or.inl ⟨program, hbefore⟩
      · exact Or.inr ⟨rfl, hlength⟩
  | exec hthread _ => exact Or.inl (hupdate hthread hruns)
  | answer hthread _ => exact Or.inl (hupdate hthread hruns)
  | stop hthread => exact Or.inl (hupdate hthread hruns)
  | outside _ => exact Or.inl ⟨program, hruns⟩

/-- Every request of a pool was there before the step or has just started. -/
theorem thread_of_next {pool final : Pool Op Res ε α ρ σ} {event : Event ρ χ η}
    (h : svc.next pool event = some final) {j : Nat} {thread : Thread Op Res ε α ρ}
    (hj : final.threads[j]? = some thread) :
    (∃ before, pool.threads[j]? = some before ∧ before.request = thread.request) ∨
      (event = .start thread.request ∧ j = pool.threads.length) := by
  obtain ⟨request, status⟩ := thread
  have hupdate : ∀ {i before status' s}, pool.threads[i]? = some before →
      (pool.update i status' s).threads[j]? = some ⟨request, status⟩ →
      ∃ before, pool.threads[j]? = some before ∧ before.request = request := by
    intro i before status' s hi hj
    rcases thread_update hi hj with ⟨rfl, rfl, _⟩ | ⟨_, hj'⟩
    · exact ⟨before, hi, rfl⟩
    · exact ⟨⟨request, status⟩, hj', rfl⟩
  cases move_of_next h with
  | start request' =>
      rcases thread_start hj with hbefore | ⟨hlength, rfl, _⟩
      · exact Or.inl ⟨⟨request, status⟩, hbefore, rfl⟩
      · exact Or.inr ⟨rfl, hlength⟩
  | exec hthread _ => exact Or.inl (hupdate hthread hj)
  | answer hthread _ => exact Or.inl (hupdate hthread hj)
  | stop hthread => exact Or.inl (hupdate hthread hj)
  | outside _ => exact Or.inl ⟨⟨request, status⟩, hj, rfl⟩

/-- Without a `stop` no request is stopped. -/
theorem Steps.not_stopped (hstop : ∀ pool event, allowed pool event → ∀ i, event ≠ .stop i)
    {s : σ} {pool : Pool Op Res ε α ρ σ} (h : svc.Steps allowed (Pool.initial s) pool)
    (i : Nat) (request : ρ) : pool.threads[i]? ≠ some ⟨request, .stopped⟩ := by
  refine h.invariant (P := fun pool => ∀ i request, pool.threads[i]? ≠ some ⟨request, .stopped⟩)
    ?_ (fun i request => by simp) i request
  intro middle event final hmiddle hallowed hnext j request' hj
  have hupdate : ∀ {k before status s}, middle.threads[k]? = some before →
      (middle.update k status s).threads[j]? = some ⟨request', .stopped⟩ → status = .stopped := by
    intro k before status s hk hj
    rcases thread_update hk hj with ⟨_, _, hstatus⟩ | ⟨_, hj'⟩
    · exact hstatus.symm
    · exact absurd hj' (hmiddle j request')
  cases move_of_next hnext with
  | start request =>
      rcases thread_start hj with hbefore | ⟨_, _, hstatus⟩
      · exact hmiddle j request' hbefore
      · cases hstatus
  | exec hthread _ => cases hupdate hthread hj
  | answer hthread _ => cases hupdate hthread hj
  | stop _ => exact hstop _ _ hallowed _ rfl
  | outside _ => exact hmiddle j request' hj

end Service

end StatementProgram
