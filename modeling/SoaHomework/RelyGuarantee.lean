import SoaHomework.Interleaving

/-!
# Rely-guarantee reasoning for interleaved requests

Each request is verified on its own. Between two of its statements the other
requests may change the state, but only as the request's rely allows; every
statement it executes changes the state only as its guarantee allows. When the
guarantees of any two requests that may run together imply the relies of the
other, the assertions of all requests hold in every interleaving
(`Discipline.holds_steps`), and every step of a run is one of the guaranteed
transitions (`Discipline.transition_steps`).
-/

namespace StatementProgram

variable {Op : Type} {Res : Op → Type} {ε ε' α β ρ χ η σ : Type}

/-- What the requests of a service rely on and guarantee. -/
structure Discipline (Op : Type) (ε α ρ σ : Type) where
  /-- What every reachable shared state satisfies. -/
  inv : σ → Prop
  rely : ρ → Nat → σ → σ → Prop
  guarantee : ρ → Nat → σ → σ → Prop
  /-- The state holds nothing of request `i` before it starts. -/
  unused : Nat → σ → Prop
  /-- Requests that may be running together. -/
  compatible : ρ → ρ → Prop
  /-- The condition under which a request executes a statement. -/
  permitted : ρ → Nat → Op → σ → Prop
  /-- What a request knows whenever it executes a statement. -/
  known : ρ → Nat → Op → σ → Prop
  /-- What is known of an answered request, then and ever after. -/
  answer : ρ → Nat → Except ε α → σ → Prop

namespace Discipline

section Triples

variable (svc : Service Op Res ε α ρ χ η σ) (D : Discipline Op ε α ρ σ)
  (request : ρ) (i : Nat)

/-- Executing the program from `s` keeps the invariant and the guarantee under
    interference that respects the rely, and ends in `post`. -/
def Safe {ε' β : Type} (post : Except ε' β → σ → Prop) :
    Program Op Res ε' β → σ → Prop
  | .ret value, s => post (.ok value) s
  | .fail error, s => post (.error error) s
  | .step op next, s =>
      ∀ s₁, D.inv s₁ → D.rely request i s s₁ → D.known request i op s₁ ∧
        (D.permitted request i op s₁ →
          ∀ choice answer s₂, svc.exec i op choice s₁ = some (answer, s₂) →
            D.inv s₂ ∧ D.guarantee request i s₁ s₂ ∧ Safe post (next answer) s₂)

def Triple {ε' β : Type} (pre : σ → Prop) (program : Program Op Res ε' β)
    (post : Except ε' β → σ → Prop) : Prop :=
  ∀ s, D.inv s → pre s → D.Safe svc request i post program s

/-- An assertion that interference cannot invalidate. -/
def Stable (assertion : σ → Prop) : Prop :=
  ∀ s s', D.inv s' → D.rely request i s s' → assertion s → assertion s'

/-- What executing one statement from `pre` establishes. -/
def Executes (pre : σ → Prop) (op : Op) (post : Res op → σ → Prop) : Prop :=
  ∀ s, D.inv s → pre s → D.known request i op s ∧
    (D.permitted request i op s →
      ∀ choice answer s', svc.exec i op choice s = some (answer, s') →
        D.inv s' ∧ D.guarantee request i s s' ∧ post answer s')

variable {svc D request i}

theorem Triple.ret {pre : σ → Prop} {value : β} {post : Except ε' β → σ → Prop}
    (h : ∀ s, D.inv s → pre s → post (.ok value) s) :
    D.Triple svc request i pre (.ret value) post := h

theorem Triple.fail {pre : σ → Prop} {error : ε'} {post : Except ε' β → σ → Prop}
    (h : ∀ s, D.inv s → pre s → post (.error error) s) :
    D.Triple svc request i pre (.fail error) post := h

theorem Triple.step {pre : σ → Prop} {op : Op} (middle : Res op → σ → Prop)
    {next : Res op → Program Op Res ε' β} {post : Except ε' β → σ → Prop}
    (hstable : D.Stable request i pre) (hexec : D.Executes svc request i pre op middle)
    (hnext : ∀ answer, D.Triple svc request i (middle answer) (next answer) post) :
    D.Triple svc request i pre (.step op next) post := by
  intro s _ hpre s₁ hinv hrely
  have hpre₁ : pre s₁ := hstable s s₁ hinv hrely hpre
  obtain ⟨hknown, hsteps⟩ := hexec s₁ hinv hpre₁
  refine ⟨hknown, fun hpermitted choice answer s₂ hrun => ?_⟩
  obtain ⟨hinv₂, hguarantee, hmiddle⟩ := hsteps hpermitted choice answer s₂ hrun
  exact ⟨hinv₂, hguarantee, hnext answer s₂ hinv₂ hmiddle⟩

theorem Triple.mono {pre pre' : σ → Prop} {program : Program Op Res ε' β}
    {post post' : Except ε' β → σ → Prop}
    (h : D.Triple svc request i pre' program post')
    (hpre : ∀ s, D.inv s → pre s → pre' s)
    (hpost : ∀ result s, D.inv s → post' result s → post result s) :
    D.Triple svc request i pre program post := by
  have hsafe : ∀ s, D.inv s → D.Safe svc request i post' program s →
      D.Safe svc request i post program s := by
    clear h
    induction program with
    | ret value => exact fun s hinv hs => hpost _ s hinv hs
    | fail error => exact fun s hinv hs => hpost _ s hinv hs
    | step op next ih =>
        intro s _ hs s₁ hinv hrely
        obtain ⟨hknown, hsteps⟩ := hs s₁ hinv hrely
        refine ⟨hknown, fun hpermitted choice answer s₂ hrun => ?_⟩
        obtain ⟨hinv₂, hguarantee, hrest⟩ := hsteps hpermitted choice answer s₂ hrun
        exact ⟨hinv₂, hguarantee, ih answer s₂ hinv₂ hrest⟩
  intro s hinv hs
  exact hsafe s hinv (h s hinv (hpre s hinv hs))

theorem Triple.weaken {pre : σ → Prop} (pre' : σ → Prop) {program : Program Op Res ε' β}
    {post : Except ε' β → σ → Prop}
    (h : D.Triple svc request i pre' program post)
    (hpre : ∀ s, D.inv s → pre s → pre' s) :
    D.Triple svc request i pre program post :=
  h.mono hpre fun _ _ _ hpost => hpost

/-- What is known of the state may mention a value that is not in the program. -/
theorem Triple.exists {γ : Type} {pre : γ → σ → Prop} {program : Program Op Res ε' β}
    {post : Except ε' β → σ → Prop}
    (h : ∀ x, D.Triple svc request i (pre x) program post) :
    D.Triple svc request i (fun s => ∃ x, pre x s) program post := by
  rintro s hinv ⟨x, hpre⟩
  exact h x s hinv hpre

/-- A part of the assertion that does not mention the state. -/
theorem Triple.pure {fact : Prop} {pre : σ → Prop} {program : Program Op Res ε' β}
    {post : Except ε' β → σ → Prop}
    (h : fact → D.Triple svc request i pre program post) :
    D.Triple svc request i (fun s => fact ∧ pre s) program post := by
  rintro s hinv ⟨hfact, hpre⟩
  exact h hfact s hinv hpre

theorem Triple.bind {γ : Type} {pre : σ → Prop} {program : Program Op Res ε' β}
    {f : β → Program Op Res ε' γ} (middle : Except ε' β → σ → Prop)
    {post : Except ε' γ → σ → Prop}
    (hfirst : D.Triple svc request i pre program middle)
    (hvalue : ∀ value, D.Triple svc request i (middle (.ok value)) (f value) post)
    (herror : ∀ error s, D.inv s → middle (.error error) s → post (.error error) s) :
    D.Triple svc request i pre (program >>= f) post := by
  have hsafe : ∀ s, D.inv s → D.Safe svc request i middle program s →
      D.Safe svc request i post (program >>= f) s := by
    clear hfirst
    induction program with
    | ret value => exact fun s hinv hs => hvalue value s hinv hs
    | fail error => exact fun s hinv hs => herror error s hinv hs
    | step op next ih =>
        intro s _ hs s₁ hinv hrely
        obtain ⟨hknown, hsteps⟩ := hs s₁ hinv hrely
        refine ⟨hknown, fun hpermitted choice answer s₂ hrun => ?_⟩
        obtain ⟨hinv₂, hguarantee, hrest⟩ := hsteps hpermitted choice answer s₂ hrun
        exact ⟨hinv₂, hguarantee, ih answer s₂ hinv₂ hrest⟩
  exact fun s hinv hpre => hsafe s hinv (hfirst s hinv hpre)

theorem Triple.attempt {pre : σ → Prop} {program : Program Op Res ε' β}
    {ε'' : Type} {post : Except ε'' (Except ε' β) → σ → Prop}
    (h : D.Triple svc request i pre program fun result s => post (.ok result) s) :
    D.Triple svc request i pre program.attempt post := by
  have hsafe : ∀ s, D.inv s →
      D.Safe svc request i (fun result s => post (.ok result) s) program s →
      D.Safe svc request i post (program.attempt : Program Op Res ε'' _) s := by
    clear h
    induction program with
    | ret value => exact fun s _ hs => hs
    | fail error => exact fun s _ hs => hs
    | step op next ih =>
        intro s _ hs s₁ hinv hrely
        obtain ⟨hknown, hsteps⟩ := hs s₁ hinv hrely
        refine ⟨hknown, fun hpermitted choice answer s₂ hrun => ?_⟩
        obtain ⟨hinv₂, hguarantee, hrest⟩ := hsteps hpermitted choice answer s₂ hrun
        exact ⟨hinv₂, hguarantee, ih answer s₂ hinv₂ hrest⟩
  exact fun s hinv hpre => hsafe s hinv (h s hinv hpre)

/-- The caller of a program whose errors it inspects. -/
theorem Triple.attempt_bind {γ : Type} {ε'' : Type} {pre : σ → Prop}
    {program : Program Op Res ε' β} {f : Except ε' β → Program Op Res ε'' γ}
    (middle : Except ε' β → σ → Prop) {post : Except ε'' γ → σ → Prop}
    (hprogram : D.Triple svc request i pre program middle)
    (hnext : ∀ outcome, D.Triple svc request i (middle outcome) (f outcome) post) :
    D.Triple svc request i pre (program.attempt >>= f) post := by
  refine Triple.bind (fun result s => ∃ outcome, result = .ok outcome ∧ middle outcome s)
    (Triple.attempt (hprogram.mono (fun _ _ h => h) fun outcome s _ h => ⟨outcome, rfl, h⟩))
    (fun outcome => (hnext outcome).weaken (middle outcome) ?_) ?_
  · rintro s _ ⟨outcome', heq, h⟩
    cases heq
    exact h
  · rintro error s _ ⟨outcome, heq, _⟩
    cases heq

/-- A program that leaves its precondition when it fails may be run again. -/
theorem Triple.retry {pre : σ → Prop} {program : Program Op Res ε' β}
    {post : Except ε' β → σ → Prop} (attempts : Nat)
    (hprogram : D.Triple svc request i pre program fun result s =>
      post result s ∧ ∀ error, result = .error error → pre s) :
    D.Triple svc request i pre (program.retry attempts) post := by
  induction attempts with
  | zero => exact hprogram.mono (fun _ _ h => h) fun _ _ _ h => h.1
  | succ attempts ih =>
      refine Triple.attempt_bind _ hprogram ?_
      intro outcome
      cases outcome with
      | ok value => exact fun s _ h => h.1
      | error error => exact ih.weaken _ fun s _ h => h.2 error rfl

theorem Triple.raiseIf {pre : σ → Prop} {failed : Bool} {error : ε'}
    {next : Unit → Program Op Res ε' β} {post : Except ε' β → σ → Prop}
    (hfail : failed = true → ∀ s, D.inv s → pre s → post (.error error) s)
    (hnext : failed = false → D.Triple svc request i pre (next ()) post) :
    D.Triple svc request i pre (Program.raiseIf failed error >>= next) post := by
  cases failed with
  | true => exact fun s hinv hpre => hfail rfl s hinv hpre
  | false => exact hnext rfl

theorem Safe.rely {post : Except ε' β → σ → Prop} {program : Program Op Res ε' β}
    (htrans : ∀ s s' s'', D.rely request i s s' → D.rely request i s' s'' →
      D.rely request i s s'')
    (hpost : ∀ result, D.Stable request i (post result)) {s s' : σ}
    (hinv : D.inv s') (hrely : D.rely request i s s')
    (h : D.Safe svc request i post program s) :
    D.Safe svc request i post program s' := by
  cases program with
  | ret value => exact hpost _ s s' hinv hrely h
  | fail error => exact hpost _ s s' hinv hrely h
  | step op next =>
      intro s₁ hinv₁ hrely₁
      exact h s₁ hinv₁ (htrans s s' s₁ hrely hrely₁)

end Triples

/-! ## Soundness -/

section Soundness

variable (svc : Service Op Res ε α ρ χ η σ) (D : Discipline Op ε α ρ σ)

/-- The obligations of a discipline for a service. -/
structure Sound : Prop where
  rely_refl : ∀ request i s, D.rely request i s s
  rely_trans : ∀ request i s s' s'', D.rely request i s s' → D.rely request i s' s'' →
    D.rely request i s s''
  guarantee_rely : ∀ request request' i j s s', i ≠ j → D.compatible request request' →
    D.inv s → D.guarantee request i s s' → D.rely request' j s s'
  guarantee_unused : ∀ request i j s s', i ≠ j → D.guarantee request i s s' →
    D.unused j s → D.unused j s'
  guarantee_answer : ∀ request request' i j result s s', i ≠ j → D.inv s →
    D.guarantee request i s s' → D.answer request' j result s → D.answer request' j result s'
  close_inv : ∀ i s, D.inv s → D.inv (svc.close i s)
  close_guarantee : ∀ request i s, D.inv s → D.guarantee request i s (svc.close i s)
  close_answer : ∀ request i result s, D.inv s → D.answer request i result s →
    D.answer request i result (svc.close i s)
  answer_stable : ∀ request i result, D.Stable request i (D.answer request i result)
  outside_inv : ∀ change s s', svc.outside change s = some s' → D.inv s → D.inv s'
  outside_rely : ∀ change s s', svc.outside change s = some s' → D.inv s →
    ∀ request i, D.rely request i s s'
  outside_unused : ∀ change s s', svc.outside change s = some s' →
    ∀ i, D.unused i s → D.unused i s'
  handler_safe : ∀ request i, D.Triple svc request i (D.unused i) (svc.handler request)
    (D.answer request i)

/-- The steps a discipline speaks about: a request starts only together with
    compatible ones, and a statement is executed only when it is permitted. -/
def Allowed (pool : Pool Op Res ε α ρ σ) : Event ρ χ η → Prop
  | .start request =>
      ∀ j request' program, pool.Runs j request' program →
        D.compatible request request' ∧ D.compatible request' request
  | .step i _ =>
      ∀ request op next, pool.Runs i request (.step op next) →
        D.permitted request i op pool.shared
  | _ => True

/-- All assertions hold: those of the running requests, those of the answered
    ones, and the invariant. -/
structure Holds (pool : Pool Op Res ε α ρ σ) : Prop where
  inv : D.inv pool.shared
  unused : ∀ i, pool.threads.length ≤ i → D.unused i pool.shared
  running : ∀ i request program, pool.Runs i request program →
    D.Safe svc request i (D.answer request i) program pool.shared
  answered : ∀ i request result, pool.Answered i request result →
    D.answer request i result pool.shared
  compatible : ∀ i j request request' program program', i ≠ j →
    pool.Runs i request program →
    pool.Runs j request' program' → D.compatible request request'

variable {svc D}

theorem holds_initial {s : σ} (hinv : D.inv s) (hunused : ∀ i, D.unused i s) :
    D.Holds svc (Pool.initial s) where
  inv := hinv
  unused i _ := hunused i
  running i request program h := by simp [Pool.Runs] at h
  answered i request result h := by simp [Pool.Answered] at h
  compatible i j request request' program program' _ h := by simp [Pool.Runs] at h

/-- Request `i` moves to `status` by a guaranteed transition. -/
theorem holds_update (hsound : D.Sound svc) {pool : Pool Op Res ε α ρ σ}
    (h : D.Holds svc pool) {i : Nat} {request : ρ} {program : Program Op Res ε α}
    {status : Status Op Res ε α} {s : σ}
    (hthread : pool.Runs i request program)
    (hinv : D.inv s) (hguarantee : D.guarantee request i pool.shared s)
    (hrunning : ∀ program, status = .running program →
      D.Safe svc request i (D.answer request i) program s)
    (hanswered : ∀ result, status = .answered result → D.answer request i result s) :
    D.Holds svc (pool.update i status s) where
  inv := hinv
  unused j hj := by
    rw [Service.update_length] at hj
    have hij : i ≠ j := by
      rintro rfl
      exact absurd (Service.lt_length_of_getElem hthread) (Nat.not_lt.mpr hj)
    exact hsound.guarantee_unused request i j _ _ hij hguarantee (h.unused j hj)
  running j request' program' hj := by
    rcases Service.thread_update hthread hj with ⟨rfl, rfl, hstatus⟩ | ⟨hij, hj'⟩
    · exact hrunning program' hstatus.symm
    · have hcompatible := h.compatible i j _ _ _ _ hij hthread hj'
      have hrely := hsound.guarantee_rely request request' i j _ _ hij hcompatible h.inv
        hguarantee
      exact (h.running j request' program' hj').rely (hsound.rely_trans request' j)
        (hsound.answer_stable request' j) hinv hrely
  answered j request' result hj := by
    rcases Service.thread_update hthread hj with ⟨rfl, rfl, hstatus⟩ | ⟨hij, hj'⟩
    · exact hanswered result hstatus.symm
    · exact hsound.guarantee_answer request request' i j result _ _ hij h.inv hguarantee
        (h.answered j request' result hj')
  compatible j k request₁ request₂ program₁ program₂ hjk hj hk := by
    rcases Service.thread_update hthread hj with ⟨rfl, rfl, _⟩ | ⟨_, hj'⟩
    · rcases Service.thread_update hthread hk with ⟨rfl, _, _⟩ | ⟨_, hk'⟩
      · exact absurd rfl hjk
      · exact h.compatible _ k _ _ _ _ hjk hthread hk'
    · rcases Service.thread_update hthread hk with ⟨rfl, rfl, _⟩ | ⟨_, hk'⟩
      · exact h.compatible j _ _ _ _ _ hjk hj' hthread
      · exact h.compatible j k _ _ _ _ hjk hj' hk'

theorem holds_start (hsound : D.Sound svc) {pool : Pool Op Res ε α ρ σ}
    (h : D.Holds svc pool) {request : ρ}
    (hcompatible : ∀ j request' program,
      pool.Runs j request' program →
        D.compatible request request' ∧ D.compatible request' request) :
    D.Holds svc
      ⟨pool.shared, pool.threads ++ [⟨request, .running (svc.handler request)⟩]⟩ where
  inv := h.inv
  unused i hi := h.unused i (by simp at hi; omega)
  running i request' program hi := by
    rcases Service.thread_start hi with hi' | ⟨rfl, rfl, hstatus⟩
    · exact h.running i request' program hi'
    · cases hstatus
      exact hsound.handler_safe _ _ _ h.inv (h.unused _ (Nat.le_refl _))
  answered i request' result hi := by
    rcases Service.thread_start hi with hi' | ⟨rfl, rfl, hstatus⟩
    · exact h.answered i request' result hi'
    · cases hstatus
  compatible i j request₁ request₂ program₁ program₂ hij hi hj := by
    rcases Service.thread_start hi with hi' | ⟨rfl, rfl, _⟩
    · rcases Service.thread_start hj with hj' | ⟨rfl, rfl, _⟩
      · exact h.compatible i j _ _ _ _ hij hi' hj'
      · exact (hcompatible i _ _ hi').2
    · rcases Service.thread_start hj with hj' | ⟨rfl, rfl, _⟩
      · exact (hcompatible j _ _ hj').1
      · exact absurd rfl hij

theorem holds_outside (hsound : D.Sound svc) {pool : Pool Op Res ε α ρ σ}
    (h : D.Holds svc pool) {change : η} {s : σ}
    (hchange : svc.outside change pool.shared = some s)
    (hanswer : ∀ request i result, D.answer request i result pool.shared →
      D.answer request i result s) :
    D.Holds svc ⟨s, pool.threads⟩ where
  inv := hsound.outside_inv change _ s hchange h.inv
  unused i hi := hsound.outside_unused change _ s hchange i (h.unused i hi)
  running i request program hi :=
    (h.running i request program hi).rely (hsound.rely_trans request i)
      (hsound.answer_stable request i) (hsound.outside_inv change _ s hchange h.inv)
      (hsound.outside_rely change _ s hchange h.inv request i)
  answered i request result hi := hanswer request i result (h.answered i request result hi)
  compatible := h.compatible

theorem holds_next (hsound : D.Sound svc) {pool final : Pool Op Res ε α ρ σ}
    {event : Event ρ χ η} (h : D.Holds svc pool) (hallowed : D.Allowed pool event)
    (hnext : svc.next pool event = some final) : D.Holds svc final := by
  cases Service.move_of_next hnext with
  | start request => exact holds_start hsound h hallowed
  | exec hthread hexec =>
      obtain ⟨_, hsteps⟩ := h.running _ _ _ hthread _ h.inv (hsound.rely_refl _ _ _)
      obtain ⟨hinv, hguarantee, hsafe⟩ := hsteps (hallowed _ _ _ hthread) _ _ _ hexec
      refine holds_update hsound h hthread hinv hguarantee ?_ ?_
      · intro program heq
        cases heq
        exact hsafe
      · intro result heq
        cases heq
  | @answer i _ request program result hthread houtcome =>
      have hanswer : D.answer request i result pool.shared := by
        have hsafe := h.running i request program hthread
        cases program with
        | ret value =>
            cases houtcome
            exact hsafe
        | fail error =>
            cases houtcome
            exact hsafe
        | step op next => cases houtcome
      refine holds_update hsound h hthread (hsound.close_inv _ _ h.inv)
        (hsound.close_guarantee _ _ _ h.inv) ?_ ?_
      · intro program heq
        cases heq
      · intro result' heq
        cases heq
        exact hsound.close_answer request i result _ h.inv hanswer
  | stop hthread =>
      refine holds_update hsound h hthread (hsound.close_inv _ _ h.inv)
        (hsound.close_guarantee _ _ _ h.inv) ?_ ?_
      · intro program heq
        cases heq
      · intro result heq
        cases heq
  | outside hchange =>
      refine holds_outside hsound h hchange fun request i result hanswer => ?_
      exact hsound.answer_stable request i result _ _
        (hsound.outside_inv _ _ _ hchange h.inv)
        (hsound.outside_rely _ _ _ hchange h.inv request i) hanswer

/-- What a request knows at its next statement. -/
theorem Holds.known (hsound : D.Sound svc) {pool : Pool Op Res ε α ρ σ}
    (h : D.Holds svc pool) {i : Nat} {request : ρ} {op : Op}
    {next : Res op → Program Op Res ε α} (hruns : pool.Runs i request (.step op next)) :
    D.known request i op pool.shared :=
  (h.running i request _ hruns pool.shared h.inv (hsound.rely_refl request i _)).1

/-- A permitted statement of a request keeps its guarantee. -/
theorem Holds.guarantee (hsound : D.Sound svc) {pool : Pool Op Res ε α ρ σ}
    (h : D.Holds svc pool) {i : Nat} {request : ρ} {op : Op} {choice : χ} {answer : Res op}
    {s : σ} {next : Res op → Program Op Res ε α} (hruns : pool.Runs i request (.step op next))
    (hpermitted : D.permitted request i op pool.shared)
    (hexec : svc.exec i op choice pool.shared = some (answer, s)) :
    D.guarantee request i pool.shared s := by
  obtain ⟨_, hexecutes⟩ := h.running i request _ hruns pool.shared h.inv
    (hsound.rely_refl request i _)
  exact (hexecutes hpermitted choice answer s hexec).2.1

/-- In every run that respects the discipline all assertions hold. -/
theorem holds_steps (hsound : D.Sound svc) {first final : Pool Op Res ε α ρ σ}
    (h : svc.Steps D.Allowed first final) (hfirst : D.Holds svc first) :
    D.Holds svc final :=
  h.invariant (fun _ _ _ hpool hallowed hnext => holds_next hsound hpool hallowed hnext)
    hfirst

/-- A reflexive and transitive relation that contains the guaranteed
    transitions and the outside changes relates the states of a run. -/
theorem transition_steps (hsound : D.Sound svc) {R : σ → σ → Prop}
    (hrefl : ∀ s, R s s) (htrans : ∀ s s' s'', R s s' → R s' s'' → R s s'')
    (hguarantee : ∀ request i s s', D.inv s → D.guarantee request i s s' → R s s')
    (houtside : ∀ change s s', D.inv s → svc.outside change s = some s' → R s s')
    {first final : Pool Op Res ε α ρ σ} (h : svc.Steps D.Allowed first final)
    (hfirst : D.Holds svc first) : R first.shared final.shared := by
  induction h with
  | refl => exact hrefl _
  | tail event hsteps hallowed hnext ih =>
      have hmiddle := holds_steps hsound hsteps hfirst
      refine htrans _ _ _ ih ?_
      cases Service.move_of_next hnext with
      | start request => exact hrefl _
      | exec hthread hexec =>
          obtain ⟨_, hexecutes⟩ := hmiddle.running _ _ _ hthread _ hmiddle.inv
            (hsound.rely_refl _ _ _)
          obtain ⟨_, hg, _⟩ := hexecutes (hallowed _ _ _ hthread) _ _ _ hexec
          exact hguarantee _ _ _ _ hmiddle.inv hg
      | @answer i _ request _ _ hthread _ =>
          exact hguarantee request i _ _ hmiddle.inv
            (hsound.close_guarantee request i _ hmiddle.inv)
      | @stop i request _ hthread =>
          exact hguarantee request i _ _ hmiddle.inv
            (hsound.close_guarantee request i _ hmiddle.inv)
      | outside hchange => exact houtside _ _ _ hmiddle.inv hchange

end Soundness

end Discipline

end StatementProgram
