import SoaHomework.Grpc

/-!
# The circuit breaker

`internal/grpcclient/circuit_breaker.go` of the booking service: a state
machine with the three operations `Allow`, `OnSuccess` and `OnFailure`, each
of them atomic under the breaker's mutex. Times are in nanoseconds; each
operation reads the clock once at most.
-/

namespace SoaHomework.GrpcClient

open Grpc

inductive BreakerState where
  | closed
  | opened
  | halfOpen
deriving DecidableEq, Repr

structure CBConfig where
  failureThreshold : Int
  openTimeout : Int
deriving DecidableEq, Repr

structure CircuitBreaker where
  state : BreakerState
  failureCount : Int
  openUntil : Int
  halfOpenInFlight : Bool
  cfg : CBConfig
deriving DecidableEq, Repr

def second : Int := 1000000000

/-- The zero `time.Time`, the first of January of the year 1. -/
def zeroTime : Int := -62135596800 * second

def CBConfig.normalize (cfg : CBConfig) : CBConfig where
  failureThreshold := if cfg.failureThreshold ≤ 0 then 5 else cfg.failureThreshold
  openTimeout := if cfg.openTimeout ≤ 0 then 20 * second else cfg.openTimeout

def newCircuitBreaker (cfg : CBConfig) : CircuitBreaker where
  state := .closed
  failureCount := 0
  openUntil := zeroTime
  halfOpenInFlight := false
  cfg := cfg.normalize

namespace CircuitBreaker

/-- The `case "half_open"` of `Allow`, which is also where an open breaker
    falls through to. -/
def allowHalfOpen (c : CircuitBreaker) : Bool × CircuitBreaker :=
  if c.halfOpenInFlight then (false, c)
  else (true, { c with halfOpenInFlight := true })

def allow (now : Int) (c : CircuitBreaker) : Bool × CircuitBreaker :=
  match c.state with
  | .opened =>
      if c.openUntil < now then
        allowHalfOpen { c with state := .halfOpen, halfOpenInFlight := false }
      else (false, c)
  | .halfOpen => allowHalfOpen c
  | .closed => (true, c)

def onSuccess (c : CircuitBreaker) : CircuitBreaker :=
  if c.state = .halfOpen then
    { c with state := .closed, failureCount := 0, halfOpenInFlight := false }
  else { c with failureCount := 0 }

end CircuitBreaker

def isBreakerError : CallError → Bool
  | .status error => error.code.isTransient
  | .other => false

namespace CircuitBreaker

def onFailure (err : CallError) (now : Int) (c : CircuitBreaker) : CircuitBreaker :=
  if isBreakerError err = false then c
  else match c.state with
    | .halfOpen =>
        { c with
          openUntil := now + c.cfg.openTimeout, state := .opened, halfOpenInFlight := false }
    | .closed =>
        if c.cfg.failureThreshold ≤ c.failureCount + 1 then
          { c with
            failureCount := c.failureCount + 1, openUntil := now + c.cfg.openTimeout,
            state := .opened }
        else { c with failureCount := c.failureCount + 1 }
    | .opened => c

end CircuitBreaker

/-! ## Histories of calls -/

inductive Call where
  | allow
  | onSuccess
  | onFailure (err : CallError)
deriving DecidableEq, Repr

/-- The answer of a call, which only `Allow` has, and the breaker after it. -/
def CircuitBreaker.perform (now : Int) (call : Call) (c : CircuitBreaker) :
    Option Bool × CircuitBreaker :=
  match call with
  | .allow => (some (c.allow now).1, (c.allow now).2)
  | .onSuccess => (none, c.onSuccess)
  | .onFailure err => (none, c.onFailure err now)

structure Step where
  now : Int
  call : Call
  answer : Option Bool
  before : CircuitBreaker
  after : CircuitBreaker
deriving DecidableEq, Repr

/-- The breaker after the calls, of which the latest comes first. -/
def breakerAfter (cfg : CBConfig) : List (Int × Call) → CircuitBreaker
  | [] => newCircuitBreaker cfg
  | (now, call) :: earlier => ((breakerAfter cfg earlier).perform now call).2

/-- What each call saw and did. -/
def history (cfg : CBConfig) : List (Int × Call) → List Step
  | [] => []
  | (now, call) :: earlier =>
      let before := breakerAfter cfg earlier
      ⟨now, call, (before.perform now call).1, before, (before.perform now call).2⟩ ::
        history cfg earlier

/-- A report that the breaker counts. -/
def Step.isBreakerReport (step : Step) : Bool :=
  match step.call with
  | .onFailure err => isBreakerError err
  | _ => false

/-- A call that starts the count of reports again: `OnSuccess`, or one that
    closes the breaker. -/
def Step.restarts (step : Step) : Bool :=
  step.call == .onSuccess || (step.before.state != .closed && step.after.state == .closed)

/-- The `Unavailable` and `DeadlineExceeded` reports since the last `OnSuccess`
    or since the breaker became closed. -/
def failuresSince (h : List Step) : Nat :=
  (h.takeWhile fun step => !step.restarts).countP Step.isBreakerReport

/-! ## One call -/

/-- What every breaker satisfies: the flag is set exactly in `half_open`, and
    the configured bounds are positive. -/
structure CircuitBreaker.WellFormed (c : CircuitBreaker) : Prop where
  flag : c.halfOpenInFlight = true ↔ c.state = .halfOpen
  threshold : 0 < c.cfg.failureThreshold
  timeout : 0 < c.cfg.openTimeout

/-- The transitions of a well-formed breaker. -/
inductive Transition (now : Int) (c : CircuitBreaker) :
    Call → Option Bool → CircuitBreaker → Prop where
  | pass (hstate : c.state = .closed) : Transition now c .allow (some true) c
  | probe (hstate : c.state = .opened) (htime : c.openUntil < now) :
      Transition now c .allow (some true)
        { c with state := .halfOpen, halfOpenInFlight := true }
  | refuse (hstate : c.state = .halfOpen ∨ c.state = .opened ∧ now ≤ c.openUntil) :
      Transition now c .allow (some false) c
  | reset (hstate : c.state ≠ .halfOpen) :
      Transition now c .onSuccess none { c with failureCount := 0 }
  | close (hstate : c.state = .halfOpen) :
      Transition now c .onSuccess none
        { c with state := .closed, failureCount := 0, halfOpenInFlight := false }
  | ignore {err : CallError} (herr : isBreakerError err = false ∨ c.state = .opened) :
      Transition now c (.onFailure err) none c
  | count {err : CallError} (herr : isBreakerError err = true) (hstate : c.state = .closed)
      (hbelow : c.failureCount + 1 < c.cfg.failureThreshold) :
      Transition now c (.onFailure err) none { c with failureCount := c.failureCount + 1 }
  | trip {err : CallError} (herr : isBreakerError err = true) (hstate : c.state = .closed)
      (hreached : c.cfg.failureThreshold ≤ c.failureCount + 1) :
      Transition now c (.onFailure err) none
        { c with
          failureCount := c.failureCount + 1, openUntil := now + c.cfg.openTimeout,
          state := .opened }
  | reopen {err : CallError} (herr : isBreakerError err = true)
      (hstate : c.state = .halfOpen) :
      Transition now c (.onFailure err) none
        { c with
          openUntil := now + c.cfg.openTimeout, state := .opened, halfOpenInFlight := false }

variable {c : CircuitBreaker} {now : Int} {call : Call}

/-- Every call is one of the transitions. -/
theorem transition_of_perform (hc : c.WellFormed) (now : Int) (call : Call) :
    Transition now c call (c.perform now call).1 (c.perform now call).2 := by
  cases call with
  | allow =>
      cases hstate : c.state with
      | closed =>
          simp only [CircuitBreaker.perform, CircuitBreaker.allow, hstate]
          exact .pass hstate
      | opened =>
          by_cases htime : c.openUntil < now
          · simp only [CircuitBreaker.perform, CircuitBreaker.allow, hstate, if_pos htime,
              CircuitBreaker.allowHalfOpen, Bool.false_eq_true, if_false]
            exact .probe hstate htime
          · simp only [CircuitBreaker.perform, CircuitBreaker.allow, hstate, if_neg htime]
            exact .refuse (Or.inr ⟨hstate, Int.not_lt.mp htime⟩)
      | halfOpen =>
          have hflag : c.halfOpenInFlight = true := hc.flag.mpr hstate
          simp only [CircuitBreaker.perform, CircuitBreaker.allow, hstate,
            CircuitBreaker.allowHalfOpen, if_pos hflag]
          exact .refuse (Or.inl hstate)
  | onSuccess =>
      by_cases hstate : c.state = .halfOpen
      · simp only [CircuitBreaker.perform, CircuitBreaker.onSuccess, if_pos hstate]
        exact .close hstate
      · simp only [CircuitBreaker.perform, CircuitBreaker.onSuccess, if_neg hstate]
        exact .reset hstate
  | onFailure err =>
      cases herr : isBreakerError err with
      | false =>
          simp only [CircuitBreaker.perform, CircuitBreaker.onFailure, herr, if_true]
          exact .ignore (Or.inl herr)
      | true =>
          cases hstate : c.state with
          | closed =>
              by_cases hreached : c.cfg.failureThreshold ≤ c.failureCount + 1
              · simp only [CircuitBreaker.perform, CircuitBreaker.onFailure, herr, hstate,
                  Bool.true_eq_false, if_false, if_pos hreached]
                exact .trip herr hstate hreached
              · have hcount : c.onFailure err now =
                    { c with failureCount := c.failureCount + 1 } := by
                  simp only [CircuitBreaker.onFailure, herr, hstate, Bool.true_eq_false,
                    if_false, if_neg hreached]
                simp only [CircuitBreaker.perform, hcount]
                exact .count herr hstate (Int.not_le.mp hreached)
          | opened =>
              simp only [CircuitBreaker.perform, CircuitBreaker.onFailure, herr, hstate,
                Bool.true_eq_false, if_false]
              exact .ignore (Or.inr hstate)
          | halfOpen =>
              simp only [CircuitBreaker.perform, CircuitBreaker.onFailure, herr, hstate,
                Bool.true_eq_false, if_false]
              exact .reopen herr hstate

/-- The three ways in which `Allow` ends. -/
theorem allow_cases (hc : c.WellFormed) (now : Int) :
    (c.state = .closed ∧ c.allow now = (true, c)) ∨
      (c.state = .opened ∧ c.openUntil < now ∧
        c.allow now = (true, { c with state := .halfOpen, halfOpenInFlight := true })) ∨
      ((c.state = .halfOpen ∨ c.state = .opened ∧ now ≤ c.openUntil) ∧
        c.allow now = (false, c)) := by
  have htransition := transition_of_perform hc now .allow
  simp only [CircuitBreaker.perform] at htransition
  generalize c.allow now = result at *
  obtain ⟨allowed, c'⟩ := result
  dsimp only at htransition
  generalize hanswer : some allowed = answer at htransition
  cases htransition with
  | pass hstate =>
      cases hanswer
      exact Or.inl ⟨hstate, rfl⟩
  | probe hstate htime =>
      cases hanswer
      exact Or.inr (Or.inl ⟨hstate, htime, rfl⟩)
  | refuse hstate =>
      cases hanswer
      exact Or.inr (Or.inr ⟨hstate, rfl⟩)

theorem onSuccess_not_halfOpen (c : CircuitBreaker) : c.onSuccess.state ≠ .halfOpen := by
  unfold CircuitBreaker.onSuccess
  by_cases hstate : c.state = .halfOpen
  · rw [if_pos hstate]
    simp
  · rw [if_neg hstate]
    exact hstate

theorem onFailure_not_halfOpen (c : CircuitBreaker) {err : CallError}
    (herr : isBreakerError err = true) (now : Int) : (c.onFailure err now).state ≠ .halfOpen := by
  simp only [CircuitBreaker.onFailure, herr, Bool.true_eq_false, if_false]
  cases hstate : c.state with
  | closed =>
      dsimp only
      split
      · simp
      · simp
  | opened => simp [hstate]
  | halfOpen => simp

/-- An error that the breaker does not count leaves it as it was. -/
theorem onFailure_ignored (c : CircuitBreaker) {err : CallError}
    (herr : isBreakerError err = false) (now : Int) : c.onFailure err now = c := by
  simp only [CircuitBreaker.onFailure, herr, if_true]

theorem Transition.wellFormed {answer : Option Bool} {c' : CircuitBreaker}
    (h : Transition now c call answer c') (hc : c.WellFormed) : c'.WellFormed := by
  refine ⟨?_, ?_, ?_⟩
  · have hflag := hc.flag
    cases h with
    | pass => exact hflag
    | probe => exact ⟨fun _ => rfl, fun _ => rfl⟩
    | refuse => exact hflag
    | reset => exact hflag
    | close => simp
    | ignore => exact hflag
    | count => exact hflag
    | trip _ hstate _ =>
        have hunset : c.halfOpenInFlight = false := by
          rw [← Bool.not_eq_true, hflag, hstate]
          simp
        simp [hunset]
    | reopen => simp
  · have hthreshold := hc.threshold
    cases h <;> exact hthreshold
  · have htimeout := hc.timeout
    cases h <;> exact htimeout

theorem wellFormed_new (cfg : CBConfig) : (newCircuitBreaker cfg).WellFormed where
  flag := by simp [newCircuitBreaker]
  threshold := by
    simp only [newCircuitBreaker, CBConfig.normalize]
    split
    · decide
    · omega
  timeout := by
    simp only [newCircuitBreaker, CBConfig.normalize]
    split
    · decide
    · omega

theorem wellFormed_after (cfg : CBConfig) (calls : List (Int × Call)) :
    (breakerAfter cfg calls).WellFormed := by
  induction calls with
  | nil => exact wellFormed_new cfg
  | cons timed earlier ih =>
      exact (transition_of_perform ih timed.1 timed.2).wellFormed ih

theorem Transition.cfg {answer : Option Bool} {c' : CircuitBreaker}
    (h : Transition now c call answer c') : c'.cfg = c.cfg := by
  cases h <;> rfl

theorem wellFormed_onSuccess (hc : c.WellFormed) : c.onSuccess.WellFormed :=
  (transition_of_perform hc 0 .onSuccess).wellFormed hc

theorem wellFormed_onFailure (hc : c.WellFormed) (err : CallError) (now : Int) :
    (c.onFailure err now).WellFormed :=
  (transition_of_perform hc now (.onFailure err)).wellFormed hc

/-- The configuration is the one given to `NewCircuitBreaker`, with its
    defaults filled in. -/
theorem cfg_after (cfg : CBConfig) (calls : List (Int × Call)) :
    (breakerAfter cfg calls).cfg = cfg.normalize := by
  induction calls with
  | nil => rfl
  | cons timed earlier ih =>
      have htransition := transition_of_perform (wellFormed_after cfg earlier) timed.1 timed.2
      exact htransition.cfg.trans ih

/-! ## The whole history -/

/-- The newest step of a history ends in the present state. -/
theorem history_cons {cfg : CBConfig} {calls : List (Int × Call)} {step : Step}
    {rest : List Step} (h : history cfg calls = step :: rest) :
    ∃ earlier, calls = (step.now, step.call) :: earlier ∧ rest = history cfg earlier ∧
      step.before = breakerAfter cfg earlier ∧ step.after = breakerAfter cfg calls ∧
      Transition step.now step.before step.call step.answer step.after := by
  cases calls with
  | nil => cases h
  | cons timed earlier =>
      obtain ⟨now, call⟩ := timed
      simp only [history, List.cons.injEq] at h
      obtain ⟨rfl, rfl⟩ := h
      exact ⟨earlier, rfl, rfl, rfl, rfl, transition_of_perform (wellFormed_after cfg earlier) _ _⟩

theorem failuresSince_cons (step : Step) (h : List Step) :
    failuresSince (step :: h) =
      if step.restarts then 0
      else failuresSince h + if step.isBreakerReport then 1 else 0 := by
  cases hrestarts : step.restarts with
  | true => simp [failuresSince, hrestarts]
  | false =>
      cases hreport : step.isBreakerReport with
      | true => simp [failuresSince, hrestarts, hreport]
      | false => simp [failuresSince, hrestarts, hreport]

/-- While the breaker is closed its counter is the number of reports since the
    last restart, and it is below the threshold. -/
theorem failureCount_of_closed (cfg : CBConfig) (calls : List (Int × Call))
    (hclosed : (breakerAfter cfg calls).state = .closed) :
    (breakerAfter cfg calls).failureCount = failuresSince (history cfg calls) ∧
      (breakerAfter cfg calls).failureCount < (breakerAfter cfg calls).cfg.failureThreshold := by
  induction calls with
  | nil =>
      have hthreshold := (wellFormed_new cfg).threshold
      exact ⟨rfl, hthreshold⟩
  | cons timed earlier ih =>
      obtain ⟨now, call⟩ := timed
      have hbefore := wellFormed_after cfg earlier
      have hthreshold := hbefore.threshold
      have htransition := transition_of_perform hbefore now call
      simp only [breakerAfter, history, failuresSince_cons] at hclosed ⊢
      -- the induction hypothesis speaks of the state before the call
      generalize breakerAfter cfg earlier = c at *
      generalize c.perform now call = result at *
      obtain ⟨answer, c'⟩ := result
      cases htransition with
      | pass hstate =>
          obtain ⟨hcount, hbelow⟩ := ih hstate
          simp [Step.restarts, Step.isBreakerReport]
          exact ⟨hcount, hbelow⟩
      | probe => cases hclosed
      | refuse hstate =>
          simp only at hclosed
          simp [hclosed] at hstate
      | reset hstate =>
          simp [Step.restarts, hthreshold]
      | close hstate => simp [Step.restarts, hthreshold]
      | ignore herr =>
          simp only at hclosed
          obtain ⟨hcount, hbelow⟩ := ih hclosed
          have hignored := herr.resolve_right (by simp [hclosed])
          simp [Step.restarts, Step.isBreakerReport, hclosed, hignored]
          exact ⟨hcount, hbelow⟩
      | count herr hstate hbelow =>
          obtain ⟨hcount, _⟩ := ih hstate
          simp [Step.restarts, Step.isBreakerReport, hstate, hcount, herr] at hbelow ⊢
          exact hbelow
      | trip => cases hclosed
      | reopen => cases hclosed

/-- A closed breaker opens exactly at the report that reaches the threshold. -/
theorem opens_iff (cfg : CBConfig) (calls : List (Int × Call)) (now : Int) (call : Call)
    (hclosed : (breakerAfter cfg calls).state = .closed) :
    ((breakerAfter cfg calls).perform now call).2.state = .opened ↔
      ∃ err, call = .onFailure err ∧ isBreakerError err = true ∧
        (failuresSince (history cfg calls) + 1 : Int) =
          (breakerAfter cfg calls).cfg.failureThreshold := by
  obtain ⟨hcount, hbelow⟩ := failureCount_of_closed cfg calls hclosed
  have htransition := transition_of_perform (wellFormed_after cfg calls) now call
  generalize breakerAfter cfg calls = c at *
  generalize c.perform now call = result at *
  obtain ⟨answer, c'⟩ := result
  rw [← hcount]
  cases htransition with
  | pass =>
      dsimp only at hclosed
      simp [hclosed]
  | probe hstate => simp [hclosed] at hstate
  | refuse hstate =>
      dsimp only at hclosed
      simp [hclosed] at hstate
  | reset => simp [hclosed]
  | close hstate => simp [hclosed] at hstate
  | @ignore err herr =>
      dsimp only at hclosed
      have hignored := herr.resolve_right (by simp [hclosed])
      simp [hclosed, hignored]
  | @count err herr _ hnotyet =>
      simp only [hclosed, reduceCtorEq, Call.onFailure.injEq, false_iff, not_exists, not_and]
      intro _ _ _
      omega
  | @trip err herr _ hreached =>
      refine ⟨fun _ => ⟨err, rfl, herr, ?_⟩, fun _ => rfl⟩
      omega
  | reopen _ hstate => simp [hclosed] at hstate

/-- From the step that opens the breaker on, it stays open as long as no clock
    reading is past `openUntil`. -/
theorem opened_until (cfg : CBConfig) {later earlier : List Step} {opening : Step}
    (hopened : opening.after.state = .opened) (calls : List (Int × Call))
    (h : history cfg calls = later ++ opening :: earlier)
    (htimes : ∀ step ∈ later, step.now ≤ opening.after.openUntil) :
    (breakerAfter cfg calls).state = .opened ∧
      (breakerAfter cfg calls).openUntil = opening.after.openUntil := by
  induction later generalizing calls with
  | nil =>
      obtain ⟨_, _, _, _, hafter, _⟩ := history_cons h
      rw [← hafter]
      exact ⟨hopened, rfl⟩
  | cons step later ih =>
      obtain ⟨before, _, hrest, hbefore, hafter, htransition⟩ := history_cons h
      obtain ⟨hstate, huntil⟩ := ih before hrest.symm fun s hs =>
        htimes s (List.mem_cons_of_mem _ hs)
      have htime : step.now ≤ opening.after.openUntil := htimes step List.mem_cons_self
      rw [← hbefore] at hstate huntil
      rw [← hafter]
      rw [← huntil] at htime
      generalize step.after = c' at *
      generalize step.call = call at *
      generalize step.answer = answer at *
      cases htransition with
      | pass hclosed => simp [hstate] at hclosed
      | probe _ hpast => omega
      | refuse => exact ⟨hstate, huntil⟩
      | reset => exact ⟨hstate, huntil⟩
      | close hhalf => simp [hstate] at hhalf
      | ignore => exact ⟨hstate, huntil⟩
      | count _ hclosed => simp [hstate] at hclosed
      | trip _ hclosed => simp [hstate] at hclosed
      | reopen _ hhalf => simp [hstate] at hhalf

/-- A step that `Allow` answers with `true`. -/
def Step.admits (step : Step) : Bool := step.answer == some true

/-- Between entering `half_open` and leaving it the only `Allow` that returns
    true is the one that enters. -/
theorem admits_once (cfg : CBConfig) {inside earlier : List Step} {entering : Step}
    (houtside : entering.before.state ≠ .halfOpen)
    (hentered : entering.after.state = .halfOpen) (calls : List (Int × Call))
    (h : history cfg calls = inside ++ entering :: earlier)
    (hinside : ∀ step ∈ inside, step.before.state = .halfOpen) :
    (inside ++ [entering]).countP Step.admits = 1 := by
  induction inside generalizing calls with
  | nil =>
      obtain ⟨_, _, _, _, _, htransition⟩ := history_cons h
      have hadmits : entering.admits = true := by
        generalize hafter : entering.after = c' at *
        generalize hcall : entering.call = call at *
        generalize hanswer : entering.answer = answer at *
        cases htransition with
        | probe => simp [Step.admits, hanswer]
        | pass => exact absurd hentered houtside
        | refuse => exact absurd hentered houtside
        | reset => exact absurd hentered houtside
        | close => cases hentered
        | ignore => exact absurd hentered houtside
        | count => exact absurd hentered houtside
        | trip => cases hentered
        | reopen => cases hentered
      simp [hadmits]
  | cons step inside ih =>
      obtain ⟨before, _, hrest, _, _, htransition⟩ := history_cons h
      have hcount := ih before hrest.symm fun s hs => hinside s (List.mem_cons_of_mem _ hs)
      have hhalf : step.before.state = .halfOpen := hinside step List.mem_cons_self
      have hrefused : step.admits = false := by
        generalize hafter : step.after = c' at *
        generalize hcall : step.call = call at *
        generalize hanswer : step.answer = answer at *
        cases htransition with
        | pass hclosed => simp [hhalf] at hclosed
        | probe hopened => simp [hhalf] at hopened
        | refuse => simp [Step.admits, hanswer]
        | reset => simp [Step.admits, hanswer]
        | close => simp [Step.admits, hanswer]
        | ignore => simp [Step.admits, hanswer]
        | count => simp [Step.admits, hanswer]
        | trip => simp [Step.admits, hanswer]
        | reopen => simp [Step.admits, hanswer]
      rw [List.cons_append, List.countP_cons, hcount, hrefused]
      rfl

theorem now_le_of_mem {cfg : CBConfig} {calls : List (Int × Call)} {now : Int} {call : Call}
    (hclock : ((now, call) :: calls).Pairwise fun later earlier => earlier.1 ≤ later.1)
    {step : Step} (hstep : step ∈ history cfg calls) : step.now ≤ now := by
  have hle := (List.pairwise_cons.mp hclock).1
  clear hclock
  induction calls with
  | nil => cases hstep
  | cons timed earlier ih =>
      simp only [history, List.mem_cons] at hstep
      rcases hstep with rfl | hmem
      · exact hle timed List.mem_cons_self
      · exact ih hmem fun t ht => hle t (List.mem_cons_of_mem _ ht)

/-- The circuit breaker's state machine, over every history of calls at
    nondecreasing clock times (the latest call first) and any next call. -/
theorem breaker_state_machine (cfg : CBConfig) (calls : List (Int × Call)) (now : Int)
    (call : Call)
    (hclock : ((now, call) :: calls).Pairwise fun later earlier => earlier.1 ≤ later.1) :
    ((breakerAfter cfg calls).state = .closed → 0 ≤ (breakerAfter cfg calls).failureCount ∧
      (breakerAfter cfg calls).failureCount < cfg.normalize.failureThreshold) ∧
    ((breakerAfter cfg calls).halfOpenInFlight = true ↔
      (breakerAfter cfg calls).state = .halfOpen) ∧
    ((breakerAfter cfg calls).state = .closed →
      (((breakerAfter cfg calls).perform now call).2.state = .opened ↔
        ∃ err, call = .onFailure err ∧ isBreakerError err = true ∧
          (failuresSince (history cfg calls) + 1 : Int) =
            cfg.normalize.failureThreshold)) ∧
    (∀ later opening earlier, history cfg calls = later ++ opening :: earlier →
      opening.before.state ≠ .opened → opening.after.state = .opened →
      now ≤ opening.after.openUntil → ((breakerAfter cfg calls).allow now).1 = false) ∧
    (∀ inside entering earlier, history cfg calls = inside ++ entering :: earlier →
      entering.before.state ≠ .halfOpen → entering.after.state = .halfOpen →
      (∀ step ∈ inside, step.before.state = .halfOpen) →
      (inside ++ [entering]).countP Step.admits = 1) := by
  rw [← cfg_after cfg calls]
  refine ⟨fun hclosed => ?_, (wellFormed_after cfg calls).flag, opens_iff cfg calls now call,
    ?_, ?_⟩
  · obtain ⟨hcount, hbelow⟩ := failureCount_of_closed cfg calls hclosed
    exact ⟨by omega, hbelow⟩
  · intro later opening earlier h _ hopened hnow
    have htimes : ∀ step ∈ later, step.now ≤ opening.after.openUntil := by
      intro step hstep
      have hmem : step ∈ history cfg calls := by
        rw [h]
        exact List.mem_append_left _ hstep
      exact Int.le_trans (now_le_of_mem hclock hmem) hnow
    obtain ⟨hstate, huntil⟩ := opened_until cfg hopened calls h htimes
    simp [CircuitBreaker.allow, hstate, huntil, Int.not_lt.mpr hnow]
  · intro inside entering earlier h houtside hentered hinside
    exact admits_once cfg houtside hentered calls h hinside

/-- Two reports open the breaker; the next `Allow` comes too early, the one
    after it is the probe. -/
def sampleCalls : List (Int × Call) :=
  [(16, .allow), (12, .allow), (5, .onFailure (.status ⟨.unavailable, "down"⟩)),
    (4, .onFailure (.status ⟨.deadlineExceeded, "slow"⟩)), (3, .allow), (2, .allow)]

theorem breaker_state_machine_sample :
    (breakerAfter ⟨2, 10⟩ sampleCalls).state = .halfOpen ∧
      (breakerAfter ⟨2, 10⟩ sampleCalls).halfOpenInFlight = true ∧
      ((breakerAfter ⟨2, 10⟩ (sampleCalls.drop 1)).allow 15).1 = false := by
  refine ⟨by decide, ?_, ?_⟩
  · exact (breaker_state_machine ⟨2, 10⟩ sampleCalls 17 .onSuccess (by decide)).2.1.mpr
      (by decide)
  · exact (breaker_state_machine ⟨2, 10⟩ (sampleCalls.drop 1) 15 .allow
      (by decide)).2.2.2.1 ((history ⟨2, 10⟩ sampleCalls).drop 1 |>.take 1) _ _ rfl (by decide)
        (by decide) (by decide)

end SoaHomework.GrpcClient
