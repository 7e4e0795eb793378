import Mathlib.Logic.Function.Basic
import SoaHomework.CircuitBreaker
import SoaHomework.RelyGuarantee

/-!
# Calls through the circuit breaker

`callWithRetry` of `internal/grpcclient/client.go`, and the breaker under any
number of such calls. The steps of a call (`Allow`, its attempts, `OnSuccess`
or `OnFailure`) interleave with those of the others while the clock advances
at will, so a call may last arbitrarily long.
-/

namespace SoaHomework.GrpcClient

open Grpc StatementProgram

/-! ## callWithRetry -/

section CallWithRetry

variable {Op : Type} {Res : Op → Type} {α : Type}

def circuitOpen : CallError := .status ⟨.unavailable, "circuit open"⟩

def isRetryable : CallError → Bool
  | .status error => error.code.isTransient
  | .other => false

/-- The attempts, of which `left` may still follow the first one. -/
def attempts (fn : Program Op Res CallError α) :
    Nat → Program Op Res CallError (Except CallError α)
  | 0 => fn.attempt
  | left + 1 => do
      match ← fn.attempt with
      | .ok resp => return .ok resp
      | .error err => if isRetryable err then attempts fn left else return .error err

/-- `callWithRetry`, given the breaker's operations and one attempt. The pause
    between two attempts is time that passes. -/
def callWithRetry (allow : Program Op Res CallError Bool)
    (onSuccess : Program Op Res CallError Unit)
    (onFailure : CallError → Program Op Res CallError Unit)
    (fn : Program Op Res CallError α) : Program Op Res CallError α := do
  let allowed ← allow
  Program.raiseIf (!allowed) circuitOpen
  match ← attempts fn 2 with
  | .ok resp => do
      onSuccess
      return resp
  | .error lastErr => do
      onFailure lastErr
      .fail lastErr

variable {ρ χ η σ ε α' : Type} {svc : Service Op Res ε α' ρ χ η σ}
  {D : Discipline Op ε α' ρ σ} {request : ρ} {i : Nat}

/-- What every attempt leaves, when a retry may start from what a failed
    attempt leaves. -/
theorem triple_attempts {fn : Program Op Res CallError α} {ready : σ → Prop}
    {tried : Except CallError α → σ → Prop}
    (hfn : D.Triple svc request i ready fn tried)
    (hretry : ∀ err s, D.inv s → isRetryable err = true → tried (.error err) s → ready s)
    (left : Nat) :
    D.Triple svc request i ready (attempts fn left) fun result s =>
      ∃ outcome, result = .ok outcome ∧ tried outcome s := by
  have hattempt : D.Triple svc request i ready
      (fn.attempt : Program Op Res CallError (Except CallError α)) fun result s =>
        ∃ outcome, result = .ok outcome ∧ tried outcome s := by
    refine Discipline.Triple.attempt (hfn.mono (fun _ _ h => h) ?_)
    exact fun outcome s _ htried => ⟨outcome, rfl, htried⟩
  induction left with
  | zero => exact hattempt
  | succ left ih =>
      refine Discipline.Triple.bind _ hattempt (fun outcome => ?_) ?_
      · cases outcome with
        | ok resp => exact Discipline.Triple.ret fun s _ h => h
        | error err =>
            cases hretryable : isRetryable err with
            | true =>
                simp only [hretryable, if_true]
                refine ih.weaken ready ?_
                rintro s hinv ⟨outcome, heq, htried⟩
                cases heq
                exact hretry err s hinv hretryable htried
            | false =>
                simp only [hretryable, Bool.false_eq_true, if_false]
                exact Discipline.Triple.ret fun s _ h => h
      · rintro error s _ ⟨outcome, heq, _⟩
        cases heq

/-- The rule of `callWithRetry`: one rule for each of its four parts. -/
theorem triple_callWithRetry {allow : Program Op Res CallError Bool}
    {onSuccess : Program Op Res CallError Unit}
    {onFailure : CallError → Program Op Res CallError Unit}
    {fn : Program Op Res CallError α} {pre : σ → Prop} (ready : σ → Prop)
    (tried : Except CallError α → σ → Prop) {post : Except CallError α → σ → Prop}
    (hallow : D.Triple svc request i pre allow fun result s =>
      match result with
      | .ok allowed => if allowed then ready s else post (.error circuitOpen) s
      | .error error => post (.error error) s)
    (hfn : D.Triple svc request i ready fn tried)
    (hretry : ∀ err s, D.inv s → isRetryable err = true → tried (.error err) s → ready s)
    (hsuccess : ∀ resp, D.Triple svc request i (tried (.ok resp)) onSuccess fun result s =>
      match result with
      | .ok _ => post (.ok resp) s
      | .error error => post (.error error) s)
    (hfailure : ∀ err, D.Triple svc request i (tried (.error err)) (onFailure err)
      fun result s =>
        match result with
        | .ok _ => post (.error err) s
        | .error error => post (.error error) s) :
    D.Triple svc request i pre (callWithRetry allow onSuccess onFailure fn) post := by
  refine Discipline.Triple.bind _ hallow (fun allowed => ?_) fun error s _ h => h
  refine Discipline.Triple.raiseIf (fun hrefused s _ h => ?_) fun hadmitted => ?_
  · simp only [Bool.not_eq_true'] at hrefused
    simpa [hrefused] using h
  · simp only [Bool.not_eq_false'] at hadmitted
    refine Discipline.Triple.weaken ready ?_ fun s _ h => by simpa [hadmitted] using h
    refine Discipline.Triple.bind _ (triple_attempts hfn hretry 2) (fun outcome => ?_) ?_
    · refine Discipline.Triple.weaken (tried outcome) ?_ ?_
      · cases outcome with
        | ok resp =>
            refine Discipline.Triple.bind _ (hsuccess resp) (fun _ => ?_) fun _ _ _ h => h
            exact Discipline.Triple.ret fun s _ h => h
        | error lastErr =>
            refine Discipline.Triple.bind _ (hfailure lastErr) (fun _ => ?_) fun _ _ _ h => h
            exact Discipline.Triple.fail fun s _ h => h
      · rintro s _ ⟨outcome', heq, htried⟩
        cases heq
        exact htried
    · rintro error s _ ⟨outcome, heq, _⟩
      cases heq

/-! ### A call that runs alone -/

variable {exec : (op : Op) → σ → Option (Res op × σ)} {s s' s'' : σ}

theorem alone_attempts {fn : Program Op Res CallError α} {outcome : Except CallError α}
    (hfn : fn.alone exec s = some (outcome, s'))
    (hfinal : ∀ err, outcome = .error err → isRetryable err = false) (left : Nat) :
    (attempts fn left).alone exec s = some (.ok outcome, s') := by
  cases left with
  | zero => rw [attempts, Program.alone_attempt, hfn, Option.map_some]
  | succ left =>
      rw [attempts, Program.alone_bind, Program.alone_attempt, hfn]
      cases outcome with
      | ok resp => rfl
      | error err => simp [hfinal err rfl]

variable {allow : Program Op Res CallError Bool} {onSuccess : Program Op Res CallError Unit}
  {onFailure : CallError → Program Op Res CallError Unit} {fn : Program Op Res CallError α}

theorem alone_refused (hallow : allow.alone exec s = some (.ok false, s')) :
    (callWithRetry allow onSuccess onFailure fn).alone exec s =
      some (.error circuitOpen, s') := by
  rw [callWithRetry, Program.alone_bind, hallow]
  simp [Program.raiseIf]

theorem alone_succeeded {resp : α} (hallow : allow.alone exec s = some (.ok true, s'))
    (hfn : fn.alone exec s' = some (.ok resp, s'')) :
    (callWithRetry allow onSuccess onFailure fn).alone exec s =
      (onSuccess >>= fun _ => .ret resp).alone exec s'' := by
  have hattempts := alone_attempts hfn (fun err heq => by cases heq) 2
  rw [callWithRetry, Program.alone_bind, hallow]
  simp only [Bool.not_true, Program.raiseIf, Bool.false_eq_true, if_false, Program.ret_bind]
  rw [Program.alone_bind, hattempts]
  rfl

theorem alone_failed {err : CallError} (hallow : allow.alone exec s = some (.ok true, s'))
    (hfn : fn.alone exec s' = some (.error err, s'')) (hfinal : isRetryable err = false) :
    (callWithRetry allow onSuccess onFailure fn).alone exec s =
      (onFailure err >>= fun _ => .fail err).alone exec s'' := by
  have hattempts := alone_attempts hfn (fun err' heq => by cases heq; exact hfinal) 2
  rw [callWithRetry, Program.alone_bind, hallow]
  simp only [Bool.not_true, Program.raiseIf, Bool.false_eq_true, if_false, Program.ret_bind]
  rw [Program.alone_bind, hattempts]

end CallWithRetry

/-! ## Concurrent calls -/

/-- The state of the breaker in which `Allow` has admitted a call. -/
inductive Admission where
  | closed
  | halfOpen
deriving DecidableEq, Repr

/-- Where a call stands with the breaker. -/
inductive Progress where
  | waiting
  | admitted (during : Admission)
  | reported
deriving DecidableEq, Repr

/-- The breaker and the clock. `progress` and `probe` are a history that no
    step reads: where each call stands, and which call `Allow` admitted when the
    breaker last entered `half_open`. -/
structure Shared where
  breaker : CircuitBreaker
  clock : Int
  progress : Nat → Progress
  probe : Option Nat

inductive CallOp where
  | allow
  | attempt
  | onSuccess
  | onFailure (err : CallError)

@[reducible] def CallRes : CallOp → Type
  | .allow => Bool
  | .attempt => Except CallError Unit
  | .onSuccess => Unit
  | .onFailure _ => Unit

def Shared.report (s : Shared) (i : Nat) (breaker : CircuitBreaker) : Shared :=
  { s with breaker := breaker, progress := Function.update s.progress i .reported }

def Shared.letIn (s : Shared) (i : Nat) (breaker : CircuitBreaker) : Shared :=
  { s with
    breaker := breaker
    progress := Function.update s.progress i
      (.admitted (if s.breaker.state = .closed then .closed else .halfOpen))
    probe := if s.breaker.state = .opened then some i else s.probe }

/-- Execute a step of call `i`. An attempt ends as its environment decides. -/
def executeCall (i : Nat) (op : CallOp) (outcome : Except CallError Unit) (s : Shared) :
    Option (CallRes op × Shared) :=
  match op with
  | .allow =>
      let (allowed, breaker) := s.breaker.allow s.clock
      some (allowed, if allowed then s.letIn i breaker else { s with breaker := breaker })
  | .attempt => some (outcome, s)
  | .onSuccess => some ((), s.report i s.breaker.onSuccess)
  | .onFailure err => some ((), s.report i (s.breaker.onFailure err s.clock))

/-- One attempt of a method call. -/
def methodCall : Program CallOp CallRes CallError Unit :=
  .step .attempt fun
    | .ok () => .ret ()
    | .error err => .fail err

/-- The calls of the client. Time passes between any two steps. -/
def calls : Service CallOp CallRes CallError Unit Unit (Except CallError Unit) Nat Shared where
  handler _ := callWithRetry (Program.perform CallOp.allow) (Program.perform CallOp.onSuccess)
    (fun err => Program.perform (CallOp.onFailure err)) methodCall
  exec := executeCall
  close _ s := s
  outside elapsed s := some { s with clock := s.clock + elapsed }

abbrev CallPool := Pool CallOp CallRes CallError Unit Unit Shared

def Shared.start (cfg : CBConfig) (clock : Int) : Shared :=
  ⟨newCircuitBreaker cfg, clock, fun _ => .waiting, none⟩

/-- The event is a step of call `i`, which is about to perform `op`. -/
def Performs (pool : CallPool) (event : Event Unit (Except CallError Unit) Nat) (i : Nat)
    (op : CallOp) : Prop :=
  ∃ choice next, event = .step i choice ∧ pool.Runs i () (.step op next)

/-- No call is dropped in the middle. -/
def Uninterrupted (event : Event Unit (Except CallError Unit) Nat) : Prop :=
  ∀ i, event ≠ .stop i

instance (event : Event Unit (Except CallError Unit) Nat) : Decidable (Uninterrupted event) :=
  match event with
  | .stop i => isFalse fun h => h i rfl
  | .start _ => isTrue fun _ h => by cases h
  | .step _ _ => isTrue fun _ h => by cases h
  | .outside _ => isTrue fun _ h => by cases h

/-! ## The rules of one call -/

/-- What a call relies on and guarantees: nobody else touches its progress. -/
def callDiscipline (inv : Shared → Prop) (permitted : Nat → CallOp → Shared → Prop) :
    Discipline CallOp CallError Unit Unit Shared where
  inv := inv
  rely _ i s s' := s'.progress i = s.progress i
  guarantee _ i s s' := ∀ j, i ≠ j → s'.progress j = s.progress j
  unused i s := s.progress i = .waiting
  compatible _ _ := True
  permitted _ := permitted
  known _ i op s := op = .onSuccess ∨ (∃ err, op = .onFailure err) →
    ∃ during, s.progress i = .admitted during
  answer _ i _ s := ∀ during, s.progress i ≠ .admitted during

variable {inv : Shared → Prop} {permitted : Nat → CallOp → Shared → Prop} {i : Nat}

theorem stable_progress (assertion : Progress → Prop) :
    (callDiscipline inv permitted).Stable () i fun s => assertion (s.progress i) := by
  intro s s' _ hsame h
  rw [hsame]
  exact h

theorem report_self (s : Shared) (i : Nat) (breaker : CircuitBreaker) :
    (s.report i breaker).progress i = .reported := Function.update_self _ _ _

theorem report_other (s : Shared) {i j : Nat} (hij : i ≠ j) (breaker : CircuitBreaker) :
    (s.report i breaker).progress j = s.progress j :=
  Function.update_of_ne (Ne.symm hij) _ _

theorem letIn_self (s : Shared) (i : Nat) (breaker : CircuitBreaker) :
    (s.letIn i breaker).progress i =
      .admitted (if s.breaker.state = .closed then .closed else .halfOpen) :=
  Function.update_self _ _ _

theorem letIn_other (s : Shared) {i j : Nat} (hij : i ≠ j) (breaker : CircuitBreaker) :
    (s.letIn i breaker).progress j = s.progress j :=
  Function.update_of_ne (Ne.symm hij) _ _

/-- What `Allow` does to the call that asks. -/
theorem allow_progress {s s' : Shared} (outcome : Except CallError Unit) {allowed : Bool}
    (h : executeCall i .allow outcome s = some (allowed, s')) :
    s' = (if allowed then s.letIn i (s.breaker.allow s.clock).2
      else { s with breaker := (s.breaker.allow s.clock).2 }) ∧
      allowed = (s.breaker.allow s.clock).1 := by
  simp only [executeCall, Option.some.injEq, Prod.mk.injEq] at h
  obtain ⟨rfl, rfl⟩ := h
  exact ⟨rfl, rfl⟩

/-- A call respects the discipline when its steps keep the invariant. -/
theorem triple_call
    (hallow : ∀ s s' outcome allowed, inv s → s.progress i = .waiting →
      executeCall i .allow outcome s = some (allowed, s') → inv s')
    (hsuccess : ∀ s during, inv s → s.progress i = .admitted during →
      permitted i .onSuccess s → inv (s.report i s.breaker.onSuccess))
    (hfailure : ∀ s err during, inv s → s.progress i = .admitted during →
      permitted i (.onFailure err) s → inv (s.report i (s.breaker.onFailure err s.clock))) :
    (callDiscipline inv permitted).Triple calls () i (fun s => s.progress i = .waiting)
      (calls.handler ()) ((callDiscipline inv permitted).answer () i) := by
  refine triple_callWithRetry (fun s => ∃ during, s.progress i = .admitted during)
    (fun _ s => ∃ during, s.progress i = .admitted during) ?_ ?_ (fun _ _ _ _ h => h)
    (fun _ => ?_) (fun err => ?_)
  · refine Discipline.Triple.step (fun allowed s =>
      if allowed then ∃ during, s.progress i = .admitted during else s.progress i = .waiting)
      (stable_progress (· = .waiting)) ?_ fun allowed => Discipline.Triple.ret ?_
    · refine fun s hinv hwaiting => ⟨?_, fun _ choice allowed s' hrun => ?_⟩
      · rintro (h | ⟨_, h⟩)
        · cases h
        · cases h
      refine ⟨hallow s s' choice allowed hinv hwaiting hrun, ?_⟩
      obtain ⟨rfl, _⟩ := allow_progress choice hrun
      cases allowed with
      | true => exact ⟨fun j hij => letIn_other s hij _, _, letIn_self s i _⟩
      | false => exact ⟨fun j _ => rfl, hwaiting⟩
    · intro s _ h
      cases allowed with
      | true => exact h
      | false =>
          intro during hadmitted
          simp only [Bool.false_eq_true, if_false] at h
          rw [h] at hadmitted
          cases hadmitted
  · refine Discipline.Triple.step (fun _ s => ∃ during, s.progress i = .admitted during)
      (stable_progress fun p => ∃ during, p = .admitted during) ?_ fun outcome => ?_
    · refine fun s hinv hadmitted => ⟨fun _ => hadmitted, fun _ choice outcome s' hrun => ?_⟩
      simp only [calls, executeCall, Option.some.injEq, Prod.mk.injEq] at hrun
      obtain ⟨_, rfl⟩ := hrun
      exact ⟨hinv, fun _ _ => rfl, hadmitted⟩
    · cases outcome with
      | ok _ => exact Discipline.Triple.ret fun _ _ h => h
      | error err => exact Discipline.Triple.fail fun _ _ h => h
  · refine Discipline.Triple.step (fun _ s => s.progress i = .reported)
      (stable_progress fun p => ∃ during, p = .admitted during) ?_ fun _ =>
        Discipline.Triple.ret fun s _ h during hadmitted => ?_
    · rintro s hinv ⟨during, hadmitted⟩
      refine ⟨fun _ => ⟨during, hadmitted⟩, fun hpermitted choice answer s' hrun => ?_⟩
      simp only [calls, executeCall, Option.some.injEq, Prod.mk.injEq] at hrun
      obtain ⟨_, rfl⟩ := hrun
      exact ⟨hsuccess s during hinv hadmitted hpermitted, fun j hij => report_other s hij _,
        report_self s i _⟩
    · rw [h] at hadmitted
      cases hadmitted
  · refine Discipline.Triple.step (fun _ s => s.progress i = .reported)
      (stable_progress fun p => ∃ during, p = .admitted during) ?_ fun _ =>
        Discipline.Triple.ret fun s _ h during hadmitted => ?_
    · rintro s hinv ⟨during, hadmitted⟩
      refine ⟨fun _ => ⟨during, hadmitted⟩, fun hpermitted choice answer s' hrun => ?_⟩
      simp only [calls, executeCall, Option.some.injEq, Prod.mk.injEq] at hrun
      obtain ⟨_, rfl⟩ := hrun
      exact ⟨hfailure s err during hinv hadmitted hpermitted, fun j hij => report_other s hij _,
        report_self s i _⟩
    · rw [h] at hadmitted
      cases hadmitted

theorem sound_calls
    (htick : ∀ s (elapsed : Nat), inv s → inv { s with clock := s.clock + elapsed })
    (hallow : ∀ i s s' outcome allowed, inv s → s.progress i = .waiting →
      executeCall i .allow outcome s = some (allowed, s') → inv s')
    (hsuccess : ∀ i s during, inv s → s.progress i = .admitted during →
      permitted i .onSuccess s → inv (s.report i s.breaker.onSuccess))
    (hfailure : ∀ i s err during, inv s → s.progress i = .admitted during →
      permitted i (.onFailure err) s → inv (s.report i (s.breaker.onFailure err s.clock))) :
    (callDiscipline inv permitted).Sound calls where
  rely_refl _ _ _ := rfl
  rely_trans _ _ _ _ _ h h' := h'.trans h
  guarantee_rely _ _ _ j _ _ hij _ _ h := h j hij
  guarantee_unused _ _ j _ _ hij h hunused := (h j hij).trans hunused
  guarantee_answer _ _ _ j _ _ _ hij _ h hanswer during hadmitted :=
    hanswer during ((h j hij).symm.trans hadmitted)
  close_inv _ _ h := h
  close_guarantee _ _ _ _ _ _ := rfl
  close_answer _ _ _ _ _ h := h
  answer_stable _ i _ s s' _ hsame h during hadmitted :=
    h during (hsame.symm.trans hadmitted)
  outside_inv elapsed s s' h hinv := by
    simp only [calls, Option.some.injEq] at h
    exact h ▸ htick s elapsed hinv
  outside_rely elapsed s s' h _ _ i := by
    simp only [calls, Option.some.injEq] at h
    exact h ▸ rfl
  outside_unused elapsed s s' h i hunused := by
    simp only [calls, Option.some.injEq] at h
    exact h ▸ hunused
  handler_safe _ i := triple_call (hallow i) (hsuccess i) (hfailure i)

/-! ## The half-open slot -/

/-- A half-open breaker waits for a report. -/
def SlotHeld (s : Shared) : Prop :=
  s.breaker.WellFormed ∧
    (s.breaker.state = .halfOpen → ∃ j during, s.progress j = .admitted during)

/-- A call hands `OnFailure` an error that the breaker ignores, while it is
    half-open and every other admitted call has reported already. -/
def LeaksSlot (pool : CallPool) (event : Event Unit (Except CallError Unit) Nat) : Prop :=
  ∃ i err, Performs pool event i (.onFailure err) ∧ isBreakerError err = false ∧
    pool.shared.breaker.state = .halfOpen ∧
    ∀ j during, pool.shared.progress j = .admitted during → j = i

/-- The report of an ignored error is permitted when another call is still to
    report. -/
def slotPermitted (i : Nat) (op : CallOp) (s : Shared) : Prop :=
  ∀ err, op = .onFailure err → isBreakerError err = false → s.breaker.state = .halfOpen →
    ∃ j during, i ≠ j ∧ s.progress j = .admitted during

theorem slotHeld_allow {s s' : Shared} {outcome : Except CallError Unit} {allowed : Bool}
    (h : SlotHeld s) (hrun : executeCall i .allow outcome s = some (allowed, s')) :
    SlotHeld s' := by
  obtain ⟨hwell, hslot⟩ := h
  obtain ⟨rfl, hallowed⟩ := allow_progress outcome hrun
  rcases allow_cases hwell s.clock with ⟨hstate, heq⟩ | ⟨hstate, _, heq⟩ | ⟨hstate, heq⟩
  · rw [hallowed, heq]
    refine ⟨hwell, fun hhalf => ?_⟩
    simp [Shared.letIn, hstate] at hhalf
  · rw [hallowed, heq]
    exact ⟨⟨by simp [Shared.letIn], hwell.threshold, hwell.timeout⟩,
      fun _ => ⟨i, _, letIn_self s i _⟩⟩
  · rw [hallowed, heq]
    exact ⟨hwell, hslot⟩

theorem slotHeld_success {s : Shared} (h : SlotHeld s) (i : Nat) :
    SlotHeld (s.report i s.breaker.onSuccess) :=
  ⟨wellFormed_onSuccess h.1, fun hhalf => absurd hhalf (onSuccess_not_halfOpen s.breaker)⟩

theorem slotHeld_failure {s : Shared} {err : CallError} (h : SlotHeld s)
    (hpermitted : slotPermitted i (.onFailure err) s) :
    SlotHeld (s.report i (s.breaker.onFailure err s.clock)) := by
  refine ⟨wellFormed_onFailure h.1 err s.clock, fun hhalf => ?_⟩
  cases herr : isBreakerError err with
  | true => exact absurd hhalf (onFailure_not_halfOpen s.breaker herr s.clock)
  | false =>
      simp only [Shared.report, onFailure_ignored s.breaker herr] at hhalf
      obtain ⟨j, during, hij, hadmitted⟩ := hpermitted err rfl herr hhalf
      exact ⟨j, during, (report_other s hij _).trans hadmitted⟩

theorem sound_slot : (callDiscipline SlotHeld slotPermitted).Sound calls :=
  sound_calls (fun _ _ h => h) (fun _ _ _ _ _ h _ hrun => slotHeld_allow h hrun)
    (fun i _ _ h _ _ => slotHeld_success h i)
    (fun _ _ _ _ h _ hpermitted => slotHeld_failure h hpermitted)

theorem holds_start {inv : Shared → Prop} {permitted : Nat → CallOp → Shared → Prop}
    {cfg : CBConfig} {clock : Int} (h : inv (.start cfg clock)) :
    (callDiscipline inv permitted).Holds calls (Pool.initial (.start cfg clock)) :=
  Discipline.holds_initial h fun _ => rfl

/-- An event allowed by a discipline that restricts what a call performs. -/
theorem allowed_of_permitted {pool : CallPool}
    {event : Event Unit (Except CallError Unit) Nat}
    (h : ∀ i op, Performs pool event i op → permitted i op pool.shared) :
    (callDiscipline inv permitted).Allowed pool event := by
  cases event with
  | start request => exact fun _ _ _ _ => ⟨trivial, trivial⟩
  | step i choice => exact fun _ op next hruns => h i op ⟨choice, next, rfl, hruns⟩
  | stop i => trivial
  | outside elapsed => trivial

theorem slot_allowed {pool : CallPool} {event : Event Unit (Except CallError Unit) Nat}
    (h : ¬ LeaksSlot pool event) : (callDiscipline SlotHeld slotPermitted).Allowed pool event := by
  refine allowed_of_permitted fun i op hperforms err hop herr hhalf => ?_
  subst hop
  by_contra hnone
  refine h ⟨i, err, hperforms, herr, hhalf, fun j during hadmitted => ?_⟩
  by_contra hij
  exact hnone ⟨j, during, Ne.symm hij, hadmitted⟩

/-- No call has been dropped. -/
def NoneDropped (pool : CallPool) : Prop :=
  ∀ i : Nat, pool.threads[i]? ≠ some (⟨(), .stopped⟩ : Thread CallOp CallRes CallError Unit Unit)

/-- An admitted call that has not reported is still running. -/
theorem running_of_admitted {inv : Shared → Prop} {permitted : Nat → CallOp → Shared → Prop}
    {pool : CallPool} (hpool : (callDiscipline inv permitted).Holds calls pool)
    (hstopped : NoneDropped pool) {i : Nat} {during : Admission}
    (hadmitted : pool.shared.progress i = .admitted during) :
    ∃ program, pool.Runs i () program := by
  have hlt : i < pool.threads.length := by
    refine Nat.lt_of_not_le fun hle => ?_
    have hwaiting : pool.shared.progress i = .waiting := hpool.unused i hle
    rw [hadmitted] at hwaiting
    cases hwaiting
  cases hthread : pool.threads[i] with
  | mk request status =>
      have hget : pool.threads[i]? = some ⟨(), status⟩ := by
        rw [List.getElem?_eq_getElem hlt, hthread]
      cases status with
      | running program => exact ⟨program, hget⟩
      | answered result => exact absurd hadmitted (hpool.answered i () result hget during)
      | stopped => exact absurd hget (hstopped i)

/-- What performing a report does to the pool. -/
theorem performs_next {pool pool' : CallPool} {event : Event Unit (Except CallError Unit) Nat}
    {i : Nat} {op : CallOp} (hperforms : Performs pool event i op)
    (hnext : calls.next pool event = some pool') :
    ∃ outcome answer, executeCall i op outcome pool.shared = some (answer, pool'.shared) := by
  obtain ⟨choice, next, rfl, hruns⟩ := hperforms
  simp only [Service.next, Service.program?_eq_some.mpr ⟨(), hruns⟩, Option.map_eq_some_iff]
    at hnext
  obtain ⟨⟨answer, s⟩, hexec, rfl⟩ := hnext
  exact ⟨choice, answer, hexec⟩

/-- A step of the pool performs an operation of the breaker or leaves the
    breaker and the progress of the calls alone. -/
theorem next_cases {pool pool' : CallPool} {event : Event Unit (Except CallError Unit) Nat}
    (hnext : calls.next pool event = some pool') :
    (∃ i op, Performs pool event i op ∧
      ∃ outcome answer, executeCall i op outcome pool.shared = some (answer, pool'.shared)) ∨
      (pool'.shared.breaker = pool.shared.breaker ∧
        pool'.shared.progress = pool.shared.progress) := by
  cases Service.move_of_next hnext with
  | start => exact Or.inr ⟨rfl, rfl⟩
  | @exec i choice request op next answer s hthread hexec =>
      exact Or.inl ⟨i, op, ⟨choice, next, rfl, hthread⟩, choice, answer, hexec⟩
  | answer => exact Or.inr ⟨rfl, rfl⟩
  | stop => exact Or.inr ⟨rfl, rfl⟩
  | outside hchange =>
      simp only [calls, Option.some.injEq] at hchange
      subst hchange
      exact Or.inr ⟨rfl, rfl⟩

/-- A half-open breaker with no report to come. -/
def Wedged (s : Shared) : Prop :=
  s.breaker.state = .halfOpen ∧ ∀ j during, s.progress j ≠ .admitted during

/-- The steps that leak the slot are the ones that wedge the breaker. -/
theorem leaksSlot_iff {pool pool' : CallPool}
    {event : Event Unit (Except CallError Unit) Nat} (hheld : SlotHeld pool.shared)
    (hnext : calls.next pool event = some pool') :
    LeaksSlot pool event ↔ Wedged pool'.shared := by
  constructor
  · rintro ⟨i, err, hperforms, herr, hhalf, honly⟩
    obtain ⟨outcome, answer, hexec⟩ := performs_next hperforms hnext
    simp only [executeCall, Option.some.injEq, Prod.mk.injEq] at hexec
    obtain ⟨_, hshared⟩ := hexec
    rw [← hshared]
    refine ⟨by rw [Shared.report, onFailure_ignored _ herr]; exact hhalf,
      fun j during hadmitted => ?_⟩
    by_cases hij : i = j
    · subst hij
      rw [report_self] at hadmitted
      cases hadmitted
    · rw [report_other _ hij] at hadmitted
      exact hij (honly j during hadmitted).symm
  · rintro ⟨hhalf, hnone⟩
    rcases next_cases hnext with ⟨i, op, hperforms, outcome, answer, hexec⟩ | ⟨hbreaker, hprogress⟩
    · cases op with
      | allow =>
          obtain ⟨j, during, hadmitted⟩ := (slotHeld_allow hheld hexec).2 hhalf
          exact absurd hadmitted (hnone j during)
      | attempt =>
          simp only [executeCall, Option.some.injEq, Prod.mk.injEq] at hexec
          rw [← hexec.2] at hhalf hnone
          obtain ⟨j, during, hadmitted⟩ := hheld.2 hhalf
          exact absurd hadmitted (hnone j during)
      | onSuccess =>
          simp only [executeCall, Option.some.injEq, Prod.mk.injEq] at hexec
          rw [← hexec.2] at hhalf
          exact absurd hhalf (onSuccess_not_halfOpen _)
      | onFailure err =>
          simp only [executeCall, Option.some.injEq, Prod.mk.injEq] at hexec
          rw [← hexec.2] at hhalf hnone
          cases herr : isBreakerError err with
          | true => exact absurd hhalf (onFailure_not_halfOpen _ herr _)
          | false =>
              rw [Shared.report, onFailure_ignored _ herr] at hhalf
              refine ⟨i, err, hperforms, herr, hhalf, fun j during hadmitted => ?_⟩
              by_contra hij
              exact hnone j during ((report_other _ (Ne.symm hij) _).trans hadmitted)
    · rw [hbreaker] at hhalf
      obtain ⟨j, during, hadmitted⟩ := hheld.2 hhalf
      exact absurd hadmitted (by rw [← hprogress]; exact hnone j during)

/-- The breaker never wedges in a run without a leaked slot: while it is
    half-open an admitted call is still running, and with no call in flight an
    `Allow` after `openUntil` returns true. A step that leaks the slot wedges
    it. -/
theorem breaker_not_wedged (cfg : CBConfig) (clock : Int) (pool : CallPool)
    (hsteps : calls.Steps (fun pool event => Uninterrupted event ∧ ¬ LeaksSlot pool event)
      (Pool.initial (.start cfg clock)) pool) :
    (pool.shared.breaker.state = .halfOpen →
      ∃ i program during, pool.Runs i () program ∧
        pool.shared.progress i = .admitted during) ∧
    ((∀ i program, ¬ pool.Runs i () program) →
      pool.shared.breaker.openUntil < pool.shared.clock →
      (pool.shared.breaker.allow pool.shared.clock).1 = true) ∧
    ∀ event pool', calls.next pool event = some pool' →
      (LeaksSlot pool event ↔ Wedged pool'.shared) := by
  have hpool : (callDiscipline SlotHeld slotPermitted).Holds calls pool :=
    Discipline.holds_steps sound_slot
      (hsteps.mono fun _ _ h => slot_allowed h.2)
      (holds_start ⟨wellFormed_new cfg, fun h => by cases h⟩)
  have hstopped : NoneDropped pool := fun i => hsteps.not_stopped (fun _ _ h => h.1) i ()
  have hrunning : pool.shared.breaker.state = .halfOpen →
      ∃ i program during, pool.Runs i () program ∧
        pool.shared.progress i = .admitted during := by
    intro hhalf
    obtain ⟨i, during, hadmitted⟩ := hpool.inv.2 hhalf
    obtain ⟨program, hruns⟩ := running_of_admitted hpool hstopped hadmitted
    exact ⟨i, program, during, hruns, hadmitted⟩
  refine ⟨hrunning, fun hidle hpast => ?_, fun event pool' => leaksSlot_iff hpool.inv⟩
  rcases allow_cases hpool.inv.1 pool.shared.clock with
    ⟨_, heq⟩ | ⟨_, _, heq⟩ | ⟨hrefused, _⟩
  · rw [heq]
  · rw [heq]
  · rcases hrefused with hhalf | ⟨_, hearly⟩
    · obtain ⟨i, program, _, hruns, _⟩ := hrunning hhalf
      exact absurd hruns (hidle i program)
    · omega

def unavailable : CallError := .status ⟨.unavailable, "connection refused"⟩

def notFound : CallError := .status ⟨.notFound, "рейс не найден"⟩

/-- A whole call `i`, from its start to its return, with the outcomes of its
    attempts. -/
def wholeCall (i : Nat) (outcomes : List (Except CallError Unit)) :
    List (Event Unit (Except CallError Unit) Nat) :=
  .start () :: .step i (.ok ()) :: outcomes.map (.step i) ++ [.step i (.ok ()), .step i (.ok ())]

/-- A half-open breaker with its probe on the way. -/
def probingEvents : List (Event Unit (Except CallError Unit) Nat) :=
  wholeCall 0 (List.replicate 3 (.error unavailable)) ++
    [.outside 11, .start (), .step 1 (.ok ())]

def probingPool : Option CallPool :=
  calls.run (Pool.initial (.start ⟨1, 10⟩ 0)) probingEvents

theorem breaker_not_wedged_sample : ∃ pool : CallPool, probingPool = some pool ∧
    ∃ i program during, pool.Runs i () program ∧
      pool.shared.progress i = .admitted during := by
  have hrun : probingPool.isSome := by decide
  have hhalf : (probingPool.get hrun).shared.breaker.state = .halfOpen := by decide +revert
  refine ⟨_, (Option.some_get hrun).symm, ?_⟩
  refine (breaker_not_wedged ⟨1, 10⟩ 0 _ (Service.Steps.of_run_checked
    (fun pool event => decide (Uninterrupted event) &&
      decide (pool.shared.breaker.state ≠ .halfOpen)) (fun pool event h => ?_) probingEvents
    (by decide) (Option.some_get hrun).symm)).1 hhalf
  simp only [Bool.and_eq_true, decide_eq_true_eq] at h
  exact ⟨h.1, fun ⟨_, _, _, _, hstate, _⟩ => h.2 hstate⟩

/-- One call fails three times and opens the breaker; the probe ends with
    `NotFound`. -/
def wedgingEvents : List (Event Unit (Except CallError Unit) Nat) :=
  wholeCall 0 (List.replicate 3 (.error unavailable)) ++ .outside 11 ::
    wholeCall 1 [.error notFound] ++ [.outside 1000]

def wedgedPool : Option CallPool :=
  calls.run (Pool.initial (.start ⟨1, 10⟩ 0)) wedgingEvents

/-- The breaker is half-open, no call is in flight and the clock is far past
    `openUntil`, but `Allow` refuses. -/
theorem breaker_wedged :
    ¬ ∀ pool : CallPool, calls.Steps (fun _ event => Uninterrupted event)
        (Pool.initial (.start ⟨1, 10⟩ 0)) pool →
      (pool.shared.breaker.state = .halfOpen →
        ∃ i program during, pool.Runs i () program ∧
          pool.shared.progress i = .admitted during) ∧
      ((∀ i program, ¬ pool.Runs i () program) →
        pool.shared.breaker.openUntil < pool.shared.clock →
        (pool.shared.breaker.allow pool.shared.clock).1 = true) := by
  intro hclaim
  have hrun : wedgedPool.isSome := by decide
  have hidle : ∀ i < (wedgedPool.get hrun).threads.length,
      (wedgedPool.get hrun).isRunning i = false := by decide +revert
  have hpast : (wedgedPool.get hrun).shared.breaker.openUntil <
      (wedgedPool.get hrun).shared.clock := by decide +revert
  have hrefused : ((wedgedPool.get hrun).shared.breaker.allow
      (wedgedPool.get hrun).shared.clock).1 = false := by decide +revert
  have hsteps : calls.Steps (fun _ event => Uninterrupted event)
      (Pool.initial (.start ⟨1, 10⟩ 0)) (wedgedPool.get hrun) :=
    Service.Steps.of_run_checked (fun _ event => decide (Uninterrupted event))
      (fun _ _ h => of_decide_eq_true h) wedgingEvents (by decide) (Option.some_get hrun).symm
  have hallowed := (hclaim _ hsteps).2 (fun i program => Service.not_runs hidle i () program) hpast
  rw [hrefused] at hallowed
  cases hallowed

/-! ## The probe -/

/-- A call admitted in `half_open` that has not reported is the probe of the
    present half-open period. -/
def ProbeOnly (s : Shared) : Prop :=
  s.breaker.WellFormed ∧ ∀ j, s.progress j = .admitted .halfOpen →
    s.breaker.state = .halfOpen ∧ s.probe = some j

/-- A report that the breaker does not ignore. -/
def decides : CallOp → Bool
  | .onSuccess => true
  | .onFailure err => isBreakerError err
  | _ => false

/-- A call admitted while the breaker was closed reports a success, `Unavailable`
    or `DeadlineExceeded` to the half-open breaker. -/
def StaleReport (pool : CallPool) (event : Event Unit (Except CallError Unit) Nat) : Prop :=
  ∃ i op, Performs pool event i op ∧ decides op = true ∧
    pool.shared.breaker.state = .halfOpen ∧ pool.shared.progress i = .admitted .closed

def probePermitted (i : Nat) (op : CallOp) (s : Shared) : Prop :=
  decides op = true → s.breaker.state = .halfOpen → s.progress i ≠ .admitted .closed

theorem probeOnly_allow {s s' : Shared} {outcome : Except CallError Unit} {allowed : Bool}
    (h : ProbeOnly s) (hrun : executeCall i .allow outcome s = some (allowed, s')) :
    ProbeOnly s' := by
  obtain ⟨hwell, hprobe⟩ := h
  obtain ⟨rfl, hallowed⟩ := allow_progress outcome hrun
  rcases allow_cases hwell s.clock with ⟨hstate, heq⟩ | ⟨hstate, _, heq⟩ | ⟨hstate, heq⟩
  · rw [hallowed, heq]
    refine ⟨hwell, fun j hj => ?_⟩
    by_cases hij : i = j
    · subst hij
      simp only [if_true, letIn_self, hstate, Progress.admitted.injEq, reduceCtorEq] at hj
    · simp only [if_true, letIn_other s hij] at hj
      have hhalf := (hprobe j hj).1
      rw [hstate] at hhalf
      cases hhalf
  · rw [hallowed, heq]
    refine ⟨⟨by simp [Shared.letIn], hwell.threshold, hwell.timeout⟩, fun j hj => ?_⟩
    by_cases hij : i = j
    · subst hij
      simp [Shared.letIn, hstate]
    · simp only [if_true, letIn_other s hij] at hj
      have hhalf := (hprobe j hj).1
      rw [hstate] at hhalf
      cases hhalf
  · rw [hallowed, heq]
    exact ⟨hwell, hprobe⟩

/-- A report that takes the breaker out of `half_open`, or leaves it as it is. -/
theorem probeOnly_report {s : Shared} {op : CallOp} {during : Admission}
    {breaker : CircuitBreaker} (h : ProbeOnly s) (hadmitted : s.progress i = .admitted during)
    (hpermitted : probePermitted i op s) (hwell : breaker.WellFormed)
    (hbreaker : decides op = true ∨ breaker = s.breaker) :
    ProbeOnly (s.report i breaker) := by
  refine ⟨hwell, fun j hj => ?_⟩
  by_cases hij : i = j
  · subst hij
    rw [report_self] at hj
    cases hj
  · rw [report_other s hij] at hj
    obtain ⟨hhalf, hprobe⟩ := h.2 j hj
    rcases hbreaker with hdecides | rfl
    · -- the reporting call is not an old one, so it would be the probe as well
      have hnotOld := hpermitted hdecides hhalf
      cases during with
      | closed => exact absurd hadmitted hnotOld
      | halfOpen =>
          have hsame := (h.2 i hadmitted).2
          rw [hprobe, Option.some.injEq] at hsame
          exact absurd hsame.symm hij
    · exact ⟨hhalf, hprobe⟩

theorem sound_probe : (callDiscipline ProbeOnly probePermitted).Sound calls := by
  refine sound_calls (fun _ _ h => h) (fun _ _ _ _ _ h _ hrun => probeOnly_allow h hrun) ?_ ?_
  · intro i s during h hadmitted hpermitted
    exact probeOnly_report h hadmitted hpermitted (wellFormed_onSuccess h.1) (Or.inl rfl)
  · intro i s err during h hadmitted hpermitted
    refine probeOnly_report h hadmitted hpermitted (wellFormed_onFailure h.1 err s.clock) ?_
    cases herr : isBreakerError err with
    | true => exact Or.inl herr
    | false => exact Or.inr (onFailure_ignored s.breaker herr s.clock)

theorem probe_allowed {pool : CallPool} {event : Event Unit (Except CallError Unit) Nat}
    (h : ¬ StaleReport pool event) :
    (callDiscipline ProbeOnly probePermitted).Allowed pool event :=
  allowed_of_permitted fun i op hperforms hdecides hhalf hold =>
    h ⟨i, op, hperforms, hdecides, hhalf, hold⟩

/-- If the step takes the breaker out of `half_open`, it is the report of the
    call that `Allow` admitted when the breaker entered it. -/
def DecidedByProbe (pool pool' : CallPool)
    (event : Event Unit (Except CallError Unit) Nat) : Prop :=
  pool.shared.breaker.state = .halfOpen → pool'.shared.breaker.state ≠ .halfOpen →
    ∃ i op, Performs pool event i op ∧ decides op = true ∧ pool.shared.probe = some i ∧
      pool.shared.progress i = .admitted .halfOpen

/-- The half-open periods that the probe does not end are those that an old
    call ends. -/
theorem staleReport_iff {pool pool' : CallPool}
    {event : Event Unit (Except CallError Unit) Nat}
    (hpool : (callDiscipline ProbeOnly probePermitted).Holds calls pool)
    (hnext : calls.next pool event = some pool') :
    StaleReport pool event ↔ ¬ DecidedByProbe pool pool' event := by
  rw [DecidedByProbe, Classical.not_imp, Classical.not_imp]
  constructor
  · rintro ⟨i, op, hperforms, hdecides, hhalf, hold⟩
    obtain ⟨outcome, answer, hexec⟩ := performs_next hperforms hnext
    refine ⟨hhalf, ?_, ?_⟩
    · cases op with
      | allow => cases hdecides
      | attempt => cases hdecides
      | onSuccess =>
          simp only [executeCall, Option.some.injEq, Prod.mk.injEq] at hexec
          rw [← hexec.2]
          exact onSuccess_not_halfOpen _
      | onFailure err =>
          simp only [executeCall, Option.some.injEq, Prod.mk.injEq] at hexec
          rw [← hexec.2]
          exact onFailure_not_halfOpen _ hdecides _
    · rintro ⟨j, _, ⟨_, _, hevent, _⟩, _, _, hprobe⟩
      obtain ⟨_, _, rfl, _⟩ := hperforms
      cases hevent
      rw [hold] at hprobe
      cases hprobe
  · rintro ⟨hhalf, hleft, hother⟩
    rcases next_cases hnext with ⟨i, op, hperforms, outcome, answer, hexec⟩ | ⟨hbreaker, _⟩
    · have hdecides : decides op = true := by
        cases op with
        | allow =>
            obtain ⟨hshared, hallowed⟩ := allow_progress outcome hexec
            rcases allow_cases hpool.inv.1 pool.shared.clock with
              ⟨hstate, _⟩ | ⟨hstate, _⟩ | ⟨_, heq⟩
            · simp [hhalf] at hstate
            · simp [hhalf] at hstate
            · rw [hallowed, heq] at hshared
              rw [hshared] at hleft
              exact absurd hhalf hleft
        | attempt =>
            simp only [executeCall, Option.some.injEq, Prod.mk.injEq] at hexec
            rw [← hexec.2] at hleft
            exact absurd hhalf hleft
        | onSuccess => rfl
        | onFailure err =>
            cases herr : isBreakerError err with
            | true => exact herr
            | false =>
                simp only [executeCall, Option.some.injEq, Prod.mk.injEq] at hexec
                rw [← hexec.2, Shared.report, onFailure_ignored _ herr] at hleft
                exact absurd hhalf hleft
      obtain ⟨choice, next, hevent, hruns⟩ := hperforms
      have hknown := hpool.known sound_probe hruns
      obtain ⟨during, hadmitted⟩ := hknown (by
        cases op with
        | allow => cases hdecides
        | attempt => cases hdecides
        | onSuccess => exact Or.inl rfl
        | onFailure err => exact Or.inr ⟨err, rfl⟩)
      refine ⟨i, op, ⟨choice, next, hevent, hruns⟩, hdecides, hhalf, ?_⟩
      cases during with
      | closed => exact hadmitted
      | halfOpen =>
          exact absurd ⟨i, op, ⟨choice, next, hevent, hruns⟩, hdecides,
            (hpool.inv.2 i hadmitted).2, hadmitted⟩ hother
    · rw [hbreaker] at hleft
      exact absurd hhalf hleft

/-- In a run without a stale report only the probe decides a half-open breaker
    and it is the only call admitted in `half_open` that is outstanding. A stale
    report decides it in the probe's place. -/
theorem only_probe_decides (cfg : CBConfig) (clock : Int) (pool : CallPool)
    (hsteps : calls.Steps (fun pool event => ¬ StaleReport pool event)
      (Pool.initial (.start cfg clock)) pool) :
    (∀ i j, pool.shared.progress i = .admitted .halfOpen →
      pool.shared.progress j = .admitted .halfOpen → i = j) ∧
    ∀ event pool', calls.next pool event = some pool' →
      (DecidedByProbe pool pool' event ↔ ¬ StaleReport pool event) := by
  have hpool : (callDiscipline ProbeOnly probePermitted).Holds calls pool :=
    Discipline.holds_steps sound_probe (hsteps.mono fun _ _ h => probe_allowed h)
      (holds_start ⟨wellFormed_new cfg, fun _ h => by cases h⟩)
  refine ⟨fun i j hi hj => ?_, fun event pool' hnext => ?_⟩
  · have hi' := (hpool.inv.2 i hi).2
    rw [(hpool.inv.2 j hj).2, Option.some.injEq] at hi'
    exact hi'.symm
  · rw [staleReport_iff hpool hnext, Classical.not_not]

/-- The probe of a half-open breaker succeeds. -/
def probedEvents : List (Event Unit (Except CallError Unit) Nat) :=
  probingEvents ++ [.step 1 (.ok ())]

def probedPool : Option CallPool :=
  calls.run (Pool.initial (.start ⟨1, 10⟩ 0)) probedEvents

theorem only_probe_decides_sample : ∃ pool pool' : CallPool, probedPool = some pool ∧
    calls.next pool (.step 1 (.ok ())) = some pool' ∧
    pool.shared.breaker.state = .halfOpen ∧ pool'.shared.breaker.state = .closed ∧
    DecidedByProbe pool pool' (.step 1 (.ok ())) := by
  have hrun : probedPool.isSome := by decide
  have hnext : (calls.next (probedPool.get hrun) (.step 1 (.ok ()))).isSome := by
    decide +revert
  have hadmitted : (probedPool.get hrun).shared.progress 1 = .admitted .halfOpen := by
    decide +revert
  refine ⟨_, _, (Option.some_get hrun).symm, (Option.some_get hnext).symm,
    by decide +revert, by decide +revert, ?_⟩
  refine ((only_probe_decides ⟨1, 10⟩ 0 _ (Service.Steps.of_run_checked
    (fun pool event => match event with
      | .step i _ => decide (pool.shared.progress i ≠ .admitted .closed) ||
          decide (pool.shared.breaker.state ≠ .halfOpen)
      | _ => true) (fun pool event h => ?_) probedEvents (by decide)
    (Option.some_get hrun).symm)).2 _ _ (Option.some_get hnext).symm).mpr ?_
  · rintro ⟨i, op, ⟨choice, next, rfl, _⟩, _, hhalf, hold⟩
    simp [hhalf, hold] at h
  · rintro ⟨i, op, ⟨choice, next, hevent, _⟩, _, _, hold⟩
    cases hevent
    rw [hadmitted] at hold
    cases hold

/-- Two calls start while the breaker is closed. One opens it, a third becomes
    the probe, and then the attempt of the first one succeeds. -/
def staleEvents : List (Event Unit (Except CallError Unit) Nat) :=
  [.start (), .step 0 (.ok ())] ++ wholeCall 1 (List.replicate 3 (.error unavailable)) ++
    [.outside 11, .start (), .step 2 (.ok ()), .step 0 (.ok ())]

def stalePool : Option CallPool :=
  calls.run (Pool.initial (.start ⟨1, 10⟩ 0)) staleEvents

/-- The first call closes the breaker although call 2 is the probe. -/
theorem stale_report_decides :
    ¬ ∀ pool : CallPool, calls.Steps Service.anyStep (Pool.initial (.start ⟨1, 10⟩ 0)) pool →
      (∀ i j, pool.shared.progress i = .admitted .halfOpen →
        pool.shared.progress j = .admitted .halfOpen → i = j) ∧
      ∀ event pool', calls.next pool event = some pool' → DecidedByProbe pool pool' event := by
  intro hclaim
  have hrun : stalePool.isSome := by decide
  have hnext : (calls.next (stalePool.get hrun) (.step 0 (.ok ()))).isSome := by decide +revert
  have hhalf : (stalePool.get hrun).shared.breaker.state = .halfOpen := by decide +revert
  have hclosed : ((calls.next (stalePool.get hrun) (.step 0 (.ok ()))).get
      hnext).shared.breaker.state ≠ .halfOpen := by decide +revert
  have hprobe : (stalePool.get hrun).shared.probe = some 2 := by decide +revert
  obtain ⟨i, _, ⟨_, _, hevent, _⟩, _, hi, _⟩ :=
    (hclaim _ (Service.Steps.of_run staleEvents (Option.some_get hrun).symm)).2 _ _
      (Option.some_get hnext).symm hhalf hclosed
  cases hevent
  rw [hprobe] at hi
  cases hi

end SoaHomework.GrpcClient
