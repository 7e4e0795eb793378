import SoaHomework.ProgramRuns
import SoaHomework.RelyGuarantee

/-!
# Requests that take effect at once

A sequential specification serves a request as a whole. When each statement of a
service either leaves alone what the specification speaks of, or decides the outcome
of its request and has the effect that is specified of it (`Discipline.Decisive`), a
run of the service is a run of the specification: every request is served in one of
its own steps (`Atomic.run`). What a request still does after that step is nothing to
the specification.
-/

namespace StatementProgram

variable {Op : Type} {Res : Op → Type} {ε α ρ χ χ' η σ γ : Type}

/-! ## Sequential specifications -/

/-- How requests are served one at a time, and what is changed from outside. -/
structure Sequential (ε α ρ χ η γ : Type) where
  serve : ρ → χ → γ → Option (Except ε α × γ)
  outside : η → γ → Option γ

/-- The specification may serve the request so. -/
def Sequential.Serves (spec : Sequential ε α ρ χ' η γ) (request : ρ) (result : Except ε α)
    (g g' : γ) : Prop :=
  ∃ choice, spec.serve request choice g = some (result, g')

/-- The only statement: to serve a request. -/
inductive Serve (ρ : Type) where
  | serve (request : ρ)

namespace Program

def ofOutcome : Except ε α → Program Op Res ε α
  | .ok value => .ret value
  | .error error => .fail error

@[simp] theorem outcome?_ofOutcome (result : Except ε α) :
    (ofOutcome result : Program Op Res ε α).outcome? = some result := by
  cases result <;> rfl

/-- A request that is served as a whole. -/
def whole (request : ρ) : Program (Serve ρ) (fun _ => Except ε α) ε α :=
  .step (.serve request) ofOutcome

/-- All that is left are statements of `Q` and the given outcome. -/
abbrev Decided (Q : Op → Prop) (result : Except ε α) (program : Program Op Res ε α) : Prop :=
  program.Meets (fun _ _ => True) Q (· = result)

theorem decided_of_outcome {Q : Op → Prop} {result : Except ε α} {program : Program Op Res ε α}
    (h : program.outcome? = some result) : program.Decided Q result := by
  cases program with
  | ret value => exact Option.some.inj h
  | fail error => exact Option.some.inj h
  | step op next => cases h

end Program

/-- The service that serves each request in one step. -/
def Sequential.service (spec : Sequential ε α ρ χ' η γ) :
    Service (Serve ρ) (fun _ => Except ε α) ε α ρ χ' η γ where
  handler := Program.whole
  exec
    | _, .serve request, choice, s => spec.serve request choice s
  close _ s := s
  outside := spec.outside

section

variable {spec : Sequential ε α ρ χ' η γ} {i : Nat} {request : ρ} {result : Except ε α}
  {pool : Pool (Serve ρ) (fun _ => Except ε α) ε α ρ γ}

theorem Sequential.next_serve {choice : χ'} {g : γ} (hruns : pool.Runs i request (.whole request))
    (hserve : spec.serve request choice pool.shared = some (result, g)) :
    spec.service.next pool (.step i choice) =
      some (pool.update i (.running (.ofOutcome result)) g) := by
  have hexec : spec.service.exec i (.serve request) choice pool.shared = some (result, g) := hserve
  simp only [Service.next, Service.program?_eq_some.mpr ⟨request, hruns⟩, Program.whole, hexec,
    Option.map_some]

theorem Sequential.next_answer {choice : χ'} (hruns : pool.Runs i request (.ofOutcome result)) :
    spec.service.next pool (.step i choice) =
      some (pool.update i (.answered result) pool.shared) := by
  have hprogram := Service.program?_eq_some.mpr ⟨request, hruns⟩
  rcases result with error | value
  · simp only [Service.next, hprogram, Program.ofOutcome]
    rfl
  · simp only [Service.next, hprogram, Program.ofOutcome]
    rfl

theorem Sequential.next_stop {program : Program (Serve ρ) (fun _ => Except ε α) ε α}
    (hruns : pool.Runs i request program) :
    spec.service.next pool (.stop i) = some (pool.update i .stopped pool.shared) := by
  simp only [Service.next, Pool.isRunning, Service.program?_eq_some.mpr ⟨request, hruns⟩,
    Option.isSome_some, if_true]
  rfl

end

/-! ## The run that is condensed -/

/-- The second list is the first without some of the steps that execute statements. A
    request that ends before a statement has decided is served when it is answered. -/
inductive Condensed : List (Event ρ χ η) → List (Event ρ χ' η) → Prop where
  | nil : Condensed [] []
  | start (request : ρ) {events events'} (rest : Condensed events events') :
      Condensed (.start request :: events) (.start request :: events')
  | inner (i : Nat) (choice : χ) {events events'} (rest : Condensed events events') :
      Condensed (.step i choice :: events) events'
  | step (i : Nat) (choice : χ) (choice' : χ') {events events'}
      (rest : Condensed events events') :
      Condensed (.step i choice :: events) (.step i choice' :: events')
  | answer (i : Nat) (choice : χ) (serving answering : χ') {events events'}
      (rest : Condensed events events') :
      Condensed (.step i choice :: events) (.step i serving :: .step i answering :: events')
  | stop (i : Nat) {events events'} (rest : Condensed events events') :
      Condensed (.stop i :: events) (.stop i :: events')
  | outside (change : η) {events events'} (rest : Condensed events events') :
      Condensed (.outside change :: events) (.outside change :: events')

/-- The events are condensed to the second list, whatever the rest of the run is
    condensed to. -/
def CondensesTo (event : Event ρ χ η) (events' : List (Event ρ χ' η)) : Prop :=
  ∀ {rest : List (Event ρ χ η)} {rest' : List (Event ρ χ' η)},
    Condensed rest rest' → Condensed (event :: rest) (events' ++ rest')

theorem Pool.update_of_status {pool : Pool Op Res ε α ρ σ} {i : Nat} {request : ρ}
    {status : Status Op Res ε α} (h : pool.threads[i]? = some ⟨request, status⟩) :
    pool.update i status pool.shared = pool := by
  refine congrArg (Pool.mk pool.shared) (List.ext_getElem? fun j => ?_)
  by_cases hij : i = j
  · subst hij
    simp [h]
  · simp [hij]

theorem Service.run_append {svc : Service Op Res ε α ρ χ η σ} {first middle : Pool Op Res ε α ρ σ}
    {events rest : List (Event ρ χ η)} (h : svc.run first events = some middle) :
    svc.run first (events ++ rest) = svc.run middle rest := by
  induction events generalizing first with
  | nil =>
      simp only [Service.run, Option.some.injEq] at h
      rw [h, List.nil_append]
  | cons event events ih =>
      simp only [Service.run, Option.bind_eq_some_iff] at h
      obtain ⟨next, hnext, hrest⟩ := h
      simp only [List.cons_append, Service.run, hnext, Option.bind_some, ih hrest]

/-! ## Decisive statements -/

/-- The statement never changes what the specification speaks of. -/
def Discipline.Silent (D : Discipline Op ε α ρ σ) (svc : Service Op Res ε α ρ χ η σ)
    (abs : σ → γ) (op : Op) : Prop :=
  ∀ i choice s answer s', D.inv s → svc.exec i op choice s = some (answer, s') → abs s' = abs s

/-- Each statement is one of `quiet`, or decides the outcome of the request and does what
    is specified for that. -/
def Discipline.Decisive (D : Discipline Op ε α ρ σ) (svc : Service Op Res ε α ρ χ η σ)
    (spec : Sequential ε α ρ χ' η γ) (abs : σ → γ) (quiet : Op → Prop) (request : ρ) (i : Nat) :
    Program Op Res ε α → σ → Prop
  | .ret value, s => ∀ s₁, D.inv s₁ → D.rely request i s s₁ →
      spec.Serves request (.ok value) (abs s₁) (abs s₁)
  | .fail error, s => ∀ s₁, D.inv s₁ → D.rely request i s s₁ →
      spec.Serves request (.error error) (abs s₁) (abs s₁)
  | .step op next, s => ∀ s₁, D.inv s₁ → D.rely request i s s₁ → D.permitted request i op s₁ →
      ∀ choice answer s₂, svc.exec i op choice s₁ = some (answer, s₂) →
        (quiet op ∧
          (D.inv s₂ → D.Decisive svc spec abs quiet request i (next answer) s₂)) ∨
          ∃ result, spec.Serves request result (abs s₁) (abs s₂) ∧
            (next answer).Decided quiet result

/-- What makes a service one that serves its requests at once. -/
structure Atomic (svc : Service Op Res ε α ρ χ η σ) (D : Discipline Op ε α ρ σ)
    (spec : Sequential ε α ρ χ' η γ) (abs : σ → γ) (quiet : Op → Prop) : Prop where
  sound : D.Sound svc
  silent : ∀ op, quiet op → D.Silent svc abs op
  decisive : ∀ request i s, D.inv s → D.unused i s →
    D.Decisive svc spec abs quiet request i (svc.handler request) s
  close : ∀ i s, D.inv s → abs (svc.close i s) = abs s
  outside : ∀ change s s', D.inv s → svc.outside change s = some s' →
    spec.outside change (abs s) = some (abs s')

namespace Discipline

variable {svc : Service Op Res ε α ρ χ η σ} {D : Discipline Op ε α ρ σ}
  {spec : Sequential ε α ρ χ' η γ} {abs : σ → γ} {quiet : Op → Prop} {i : Nat} {request : ρ}

theorem Decisive.rely {program : Program Op Res ε α} {s s' : σ}
    (htrans : ∀ s s' s'', D.rely request i s s' → D.rely request i s' s'' →
      D.rely request i s s'')
    (h : D.Decisive svc spec abs quiet request i program s) (hrely : D.rely request i s s') :
    D.Decisive svc spec abs quiet request i program s' := by
  cases program with
  | ret value => exact fun s₁ hinv hrely₁ => h s₁ hinv (htrans s s' s₁ hrely hrely₁)
  | fail error => exact fun s₁ hinv hrely₁ => h s₁ hinv (htrans s s' s₁ hrely hrely₁)
  | step op next => exact fun s₁ hinv hrely₁ => h s₁ hinv (htrans s s' s₁ hrely hrely₁)

/-- A program that ends is served at its end. -/
theorem Decisive.ends {program : Program Op Res ε α} {result : Except ε α} {s : σ}
    (h : D.Decisive svc spec abs quiet request i program s)
    (houtcome : program.outcome? = some result) (hinv : D.inv s) (hrely : D.rely request i s s) :
    spec.Serves request result (abs s) (abs s) := by
  cases program with
  | ret value =>
      cases houtcome
      exact h s hinv hrely
  | fail error =>
      cases houtcome
      exact h s hinv hrely
  | step op next => cases houtcome

/-- A decided program that may be served as it ends is served in its first step. -/
theorem decisive_of_decided {program : Program Op Res ε α} {result : Except ε α} {s : σ}
    (hsilent : ∀ op, quiet op → D.Silent svc abs op)
    (hdecided : program.Decided quiet result)
    (h : ∀ s₁, D.inv s₁ → D.rely request i s s₁ →
      spec.Serves request result (abs s₁) (abs s₁)) :
    D.Decisive svc spec abs quiet request i program s := by
  cases program with
  | ret value =>
      cases hdecided
      exact h
  | fail error =>
      cases hdecided
      exact h
  | step op next =>
      intro s₁ hinv hrely _ choice answer s₂ hexec
      refine Or.inr ⟨result, ?_, hdecided.2 answer trivial⟩
      rw [hsilent op hdecided.1 i choice s₁ answer s₂ hinv hexec]
      exact h s₁ hinv hrely

/-- A statement executed from an assertion that the others keep. -/
theorem decisive_step {pre : σ → Prop} {op : Op} (middle : Res op → σ → Prop)
    {next : Res op → Program Op Res ε α} (hstable : D.Stable request i pre)
    (hexec : ∀ s, D.inv s → pre s → D.permitted request i op s → ∀ choice answer s',
      svc.exec i op choice s = some (answer, s') →
        (quiet op ∧ middle answer s') ∨
          ∃ result, spec.Serves request result (abs s) (abs s') ∧
            (next answer).Decided quiet result)
    (hnext : ∀ answer s, D.inv s → middle answer s →
      D.Decisive svc spec abs quiet request i (next answer) s) {s : σ} (hpre : pre s) :
    D.Decisive svc spec abs quiet request i (.step op next) s := by
  intro s₁ hinv hrely hpermitted choice answer s₂ hrun
  rcases hexec s₁ hinv (hstable s s₁ hinv hrely hpre) hpermitted choice answer s₂ hrun with
    ⟨hquiet, hmiddle⟩ | hdecided
  · exact Or.inl ⟨hquiet, fun hinv₂ => hnext answer s₂ hinv₂ hmiddle⟩
  · exact Or.inr hdecided

end Discipline

/-! ## The simulation -/

namespace Atomic

open Discipline

variable {svc : Service Op Res ε α ρ χ η σ} {D : Discipline Op ε α ρ σ}
  {spec : Sequential ε α ρ χ' η γ} {abs : σ → γ} {quiet : Op → Prop} {event : Event ρ χ η}

/-- How far the specification is with a request. -/
inductive Follows (svc : Service Op Res ε α ρ χ η σ) (D : Discipline Op ε α ρ σ)
    (spec : Sequential ε α ρ χ' η γ) (abs : σ → γ) (quiet : Op → Prop) (request : ρ) (i : Nat)
    (s : σ) :
    Status Op Res ε α → Status (Serve ρ) (fun _ => Except ε α) ε α → Prop where
  | undecided {program} (h : D.Decisive svc spec abs quiet request i program s) :
      Follows svc D spec abs quiet request i s (.running program) (.running (.whole request))
  | decided {program result} (h : program.Decided quiet result) :
      Follows svc D spec abs quiet request i s (.running program) (.running (.ofOutcome result))
  | answered (result) :
      Follows svc D spec abs quiet request i s (.answered result) (.answered result)
  | stopped : Follows svc D spec abs quiet request i s .stopped .stopped

theorem Follows.rely {request : ρ} {i : Nat} {s s' : σ} {status status'}
    (htrans : ∀ s s' s'', D.rely request i s s' → D.rely request i s' s'' →
      D.rely request i s s'')
    (h : Follows svc D spec abs quiet request i s status status') (hrely : D.rely request i s s') :
    Follows svc D spec abs quiet request i s' status status' := by
  cases h with
  | undecided h => exact .undecided (h.rely htrans hrely)
  | decided h => exact .decided h
  | answered result => exact .answered result
  | stopped => exact .stopped

/-- The specification has served the requests that are decided, and no others. -/
structure Simulates (svc : Service Op Res ε α ρ χ η σ) (D : Discipline Op ε α ρ σ)
    (spec : Sequential ε α ρ χ' η γ) (abs : σ → γ) (quiet : Op → Prop)
    (pool : Pool Op Res ε α ρ σ) (pool' : Pool (Serve ρ) (fun _ => Except ε α) ε α ρ γ) : Prop where
  holds : D.Holds svc pool
  shared : pool'.shared = abs pool.shared
  length : pool'.threads.length = pool.threads.length
  threads : ∀ {i request status}, pool.threads[i]? = some ⟨request, status⟩ →
    ∃ status', pool'.threads[i]? = some ⟨request, status'⟩ ∧
      Follows svc D spec abs quiet request i pool.shared status status'

variable {pool final : Pool Op Res ε α ρ σ} {i : Nat} {request : ρ}
  {pool' : Pool (Serve ρ) (fun _ => Except ε α) ε α ρ γ}

theorem simulates_initial {s : σ} (hinv : D.inv s) (hunused : ∀ i, D.unused i s) :
    Simulates svc D spec abs quiet (Pool.initial s) (Pool.initial (abs s)) where
  holds := holds_initial hinv hunused
  shared := rfl
  length := rfl
  threads h := by simp at h

theorem Simulates.answered (h : Simulates svc D spec abs quiet pool pool') {result : Except ε α} :
    pool'.Answered i request result ↔ pool.Answered i request result := by
  constructor
  · intro hanswered
    have hlt : i < pool.threads.length := h.length ▸ Service.lt_length_of_getElem hanswered
    obtain ⟨⟨request', status⟩, hthread⟩ : ∃ thread, pool.threads[i]? = some thread :=
      ⟨_, List.getElem?_eq_getElem hlt⟩
    obtain ⟨status', hthread', hfollows⟩ := h.threads hthread
    rw [Pool.Answered, hthread', Option.some.injEq, Thread.mk.injEq] at hanswered
    obtain ⟨rfl, rfl⟩ := hanswered
    cases hfollows
    exact hthread
  · intro hanswered
    obtain ⟨status', hthread', hfollows⟩ := h.threads hanswered
    cases hfollows
    exact hthread'

/-- Request `i` makes a guaranteed step, which the specification follows. -/
theorem Simulates.update (hatomic : Atomic svc D spec abs quiet)
    (h : Simulates svc D spec abs quiet pool pool') {program : Program Op Res ε α}
    {status : Status Op Res ε α} {s : σ}
    {before status' : Status (Serve ρ) (fun _ => Except ε α) ε α}
    (hruns : pool.Runs i request program) (hruns' : pool'.threads[i]? = some ⟨request, before⟩)
    (hguarantee : D.guarantee request i pool.shared s)
    (hholds : D.Holds svc (pool.update i status s))
    (hfollows : Follows svc D spec abs quiet request i s status status') :
    Simulates svc D spec abs quiet (pool.update i status s) (pool'.update i status' (abs s)) := by
  refine ⟨hholds, rfl, ?_, fun {j request' now} hj => ?_⟩
  · rw [Service.update_length, Service.update_length, h.length]
  · rcases Service.thread_update hruns hj with ⟨rfl, rfl, rfl⟩ | ⟨hij, hj'⟩
    · exact ⟨status', Service.update_self hruns' _ _, hfollows⟩
    · obtain ⟨now', hthread', hfollows'⟩ := h.threads hj'
      refine ⟨now', (Service.update_other hij _ _).trans hthread', ?_⟩
      rcases hfollows' with @⟨program', hdecisive⟩ | @⟨program', result, hdecided⟩ | result | _
      · refine .undecided (hdecisive.rely (hatomic.sound.rely_trans request' j) ?_)
        exact hatomic.sound.guarantee_rely request request' i j _ _ hij
          (h.holds.compatible i j _ _ _ _ hij hruns hj') h.holds.inv hguarantee
      · exact .decided hdecided
      · exact .answered result
      · exact .stopped

/-- A statement is none or one step of the specification. -/
theorem next_exec (hatomic : Atomic svc D spec abs quiet)
    (h : Simulates svc D spec abs quiet pool pool') {choice : χ} {op : Op}
    {next : Res op → Program Op Res ε α} {answer : Res op} {s : σ}
    (hallowed : D.Allowed pool (.step i choice : Event ρ χ η))
    (hruns : pool.Runs i request (.step op next))
    (hexec : svc.exec i op choice pool.shared = some (answer, s))
    (hholds : D.Holds svc (pool.update i (.running (next answer)) s)) :
    ∃ events' final', CondensesTo (.step i choice : Event ρ χ η) events' ∧
      spec.service.run pool' events' = some final' ∧
      Simulates svc D spec abs quiet (pool.update i (.running (next answer)) s) final' := by
  have hpermitted := hallowed request op next hruns
  have hguarantee := h.holds.guarantee hatomic.sound hruns hpermitted hexec
  obtain ⟨status', hruns', hfollows⟩ := h.threads hruns
  have hsilent : abs s = abs pool.shared →
      Follows svc D spec abs quiet request i s (.running (next answer)) status' →
      Simulates svc D spec abs quiet (pool.update i (.running (next answer)) s) pool' := by
    intro hsame hfollows'
    have hupdate := h.update hatomic hruns hruns' hguarantee hholds hfollows'
    rwa [hsame, ← h.shared, Pool.update_of_status hruns'] at hupdate
  rcases hfollows with @⟨_, hdecisive⟩ | @⟨_, result, hquiet, hdecided⟩
  · rcases hdecisive _ h.holds.inv (hatomic.sound.rely_refl _ _ _) hpermitted choice answer s
      hexec with ⟨hquiet, hrest⟩ | ⟨result, ⟨choice', hserve⟩, hdecided⟩
    · exact ⟨[], pool', .inner i choice, rfl, hsilent
        (hatomic.silent op hquiet i choice _ _ _ h.holds.inv hexec) (.undecided (hrest hholds.inv))⟩
    · refine ⟨[.step i choice'], _, .step i choice choice', ?_,
        h.update hatomic hruns hruns' hguarantee hholds (.decided hdecided)⟩
      rw [← h.shared] at hserve
      simp only [Service.run, Sequential.next_serve hruns' hserve, Option.bind_some]
  · exact ⟨[], pool', .inner i choice, rfl, hsilent
      (hatomic.silent op hquiet i choice _ _ _ h.holds.inv hexec)
      (.decided (hdecided answer trivial))⟩

/-- The answer of a request is one step of the specification, or two when the request is
    not decided before. -/
theorem next_answer [Inhabited χ'] (hatomic : Atomic svc D spec abs quiet)
    (h : Simulates svc D spec abs quiet pool pool') {choice : χ} {program : Program Op Res ε α}
    {result : Except ε α} (hruns : pool.Runs i request program)
    (houtcome : program.outcome? = some result)
    (hholds : D.Holds svc (pool.update i (.answered result) (svc.close i pool.shared))) :
    ∃ events' final', CondensesTo (.step i choice : Event ρ χ η) events' ∧
      spec.service.run pool' events' = some final' ∧
      Simulates svc D spec abs quiet (pool.update i (.answered result) (svc.close i pool.shared))
        final' := by
  have hclose := hatomic.close i _ h.holds.inv
  obtain ⟨status', hruns', hfollows⟩ := h.threads hruns
  have hfinal := h.update hatomic hruns hruns'
    (hatomic.sound.close_guarantee request i _ h.holds.inv) hholds (.answered result)
  rw [hclose, ← h.shared] at hfinal
  rcases hfollows with @⟨_, hdecisive⟩ | @⟨_, result', hdecided⟩
  · obtain ⟨choice', hserve⟩ := hdecisive.ends houtcome h.holds.inv (hatomic.sound.rely_refl _ _ _)
    rw [← h.shared] at hserve
    refine ⟨[.step i choice', .step i default], _, .answer i choice choice' default, ?_, hfinal⟩
    have hserved : (pool'.update i (.running (.ofOutcome result)) pool'.shared).Runs i request
        (.ofOutcome result) := Service.update_self hruns' _ _
    simp only [Service.run, Sequential.next_serve hruns' hserve, Sequential.next_answer hserved,
      Option.bind_some, Option.some.injEq]
    refine congrArg (Pool.mk _) (List.ext_getElem? fun j => ?_)
    by_cases hij : i = j
    · subst hij
      simp [Pool.update, hruns']
    · simp [Pool.update, hij]
  · refine ⟨[.step i default], _, .step i choice default, ?_, hfinal⟩
    have hresult : result' = result := by
      cases program with
      | ret value => exact (hdecided.symm.trans (Option.some.inj houtcome))
      | fail error => exact (hdecided.symm.trans (Option.some.inj houtcome))
      | step op next => cases houtcome
    subst hresult
    simp only [Service.run, Sequential.next_answer hruns', Option.bind_some]

/-- Each step is matched by a few of the specification. -/
theorem next [Inhabited χ'] (hatomic : Atomic svc D spec abs quiet)
    (h : Simulates svc D spec abs quiet pool pool') (hallowed : D.Allowed pool event)
    (hnext : svc.next pool event = some final) :
    ∃ events' final', CondensesTo event events' ∧
      spec.service.run pool' events' = some final' ∧
        Simulates svc D spec abs quiet final final' := by
  have hholds : D.Holds svc final := holds_next hatomic.sound h.holds hallowed hnext
  cases Service.move_of_next hnext with
  | start request =>
      refine ⟨[.start request], ⟨pool'.shared, _⟩, .start request, rfl, hholds, h.shared, ?_,
        fun {j request' status} hj => ?_⟩
      · simp only [List.length_append, h.length]
        rfl
      · rcases Service.thread_start hj with hj' | ⟨rfl, rfl, rfl⟩
        · obtain ⟨status', hthread', hfollows⟩ := h.threads hj'
          exact ⟨status', (List.getElem?_append_left
            (Service.lt_length_of_getElem hthread')).trans hthread', hfollows⟩
        · refine ⟨.running (.whole request'), ?_,
            .undecided (hatomic.decisive _ _ _ h.holds.inv (h.holds.unused _ (Nat.le_refl _)))⟩
          rw [← h.length, List.getElem?_concat_length]
          rfl
  | exec hruns hexec => exact hatomic.next_exec h hallowed hruns hexec hholds
  | answer hruns houtcome => exact hatomic.next_answer h hruns houtcome hholds
  | @stop i request program hruns =>
      obtain ⟨status', hruns', hfollows⟩ := h.threads hruns
      have hfinal := h.update hatomic hruns hruns'
        (hatomic.sound.close_guarantee request i _ h.holds.inv) hholds .stopped
      rw [hatomic.close i _ h.holds.inv, ← h.shared] at hfinal
      refine ⟨[.stop i], _, .stop i, ?_, hfinal⟩
      obtain ⟨program', rfl⟩ : ∃ program', status' = .running program' := by
        rcases hfollows with _ | _
        · exact ⟨_, rfl⟩
        · exact ⟨_, rfl⟩
      simp only [Service.run, Sequential.next_stop hruns', Option.bind_some]
  | @outside change s hchange =>
      refine ⟨[.outside change], ⟨abs s, pool'.threads⟩, .outside change, ?_, hholds, rfl,
        h.length, fun {j request status} hj => ?_⟩
      · have hchange' : spec.service.outside change pool'.shared = some (abs s) :=
          h.shared ▸ hatomic.outside change _ s h.holds.inv hchange
        simp only [Service.run, Service.next, hchange', Option.map_some, Option.bind_some]
      · obtain ⟨status', hthread', hfollows⟩ := h.threads hj
        refine ⟨status', hthread', hfollows.rely (hatomic.sound.rely_trans request j) ?_⟩
        exact hatomic.sound.outside_rely change _ s hchange h.holds.inv request j

/-- Every run is a run of the specification, in which each request is served in one of
    its own steps and has the answer that it has. -/
theorem run [Inhabited χ'] (hatomic : Atomic svc D spec abs quiet)
    {check : Pool Op Res ε α ρ σ → Event ρ χ η → Bool}
    (hcheck : ∀ pool event, check pool event = true → D.Allowed pool event)
    (h : Simulates svc D spec abs quiet pool pool') {events : List (Event ρ χ η)}
    (hpasses : svc.passes check pool events = true) (hrun : svc.run pool events = some final) :
    ∃ (events' : List (Event ρ χ' η)) (final' : Pool _ _ ε α ρ γ), Condensed events events' ∧
      spec.service.run pool' events' = some final' ∧
        Simulates svc D spec abs quiet final final' := by
  induction events generalizing pool pool' with
  | nil =>
      simp only [Service.run, Option.some.injEq] at hrun
      subst hrun
      exact ⟨[], pool', .nil, rfl, h⟩
  | cons event events ih =>
      simp only [Service.run, Option.bind_eq_some_iff] at hrun
      obtain ⟨middle, hnext, hrest⟩ := hrun
      simp only [Service.passes, hnext, Bool.and_eq_true] at hpasses
      obtain ⟨events₁, middle', hcondense, hrun₁, hmiddle⟩ :=
        hatomic.next h (hcheck pool event hpasses.1) hnext
      obtain ⟨events₂, final', hcondensed, hrun₂, hfinal⟩ := ih hmiddle hpasses.2 hrest
      exact ⟨events₁ ++ events₂, final', hcondense hcondensed,
        (Service.run_append hrun₁).trans hrun₂, hfinal⟩

end Atomic

end StatementProgram
