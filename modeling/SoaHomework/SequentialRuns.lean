import SoaHomework.RelyGuarantee

/-!
# Requests one after another

When a request starts only after the ones before it have ended, nothing but the
outside changes happens between two of its statements. The triples of a
discipline then need no guarantee that the others keep: it is enough that what
a request knows survives the outside changes, and the result of a request may
be described by the state it ends in (`Turns.running`).
-/

namespace StatementProgram

variable {Op : Type} {Res : Op → Type} {ε α ρ χ η σ : Type}

/-- No request is running. -/
def Pool.idle (pool : Pool Op Res ε α ρ σ) : Bool :=
  (List.range pool.threads.length).all fun i => !pool.isRunning i

theorem Pool.idle_iff {pool : Pool Op Res ε α ρ σ} :
    pool.idle = true ↔ ∀ i request program, ¬ pool.Runs i request program := by
  constructor
  · intro h i request program hruns
    have hi := List.all_eq_true.mp h i (List.mem_range.mpr (Service.lt_length_of_getElem hruns))
    have hrunning : pool.isRunning i = true := by
      rw [Pool.isRunning, Service.program?_eq_some.mpr ⟨request, hruns⟩]
      rfl
    simp [hrunning] at hi
  · intro h
    refine List.all_eq_true.mpr fun i _ => ?_
    cases hprogram : pool.program? i with
    | none => simp [Pool.isRunning, hprogram]
    | some program =>
        obtain ⟨request, hruns⟩ := Service.program?_eq_some.mp hprogram
        exact absurd hruns (h i request program)

/-- A request starts only when none is running. -/
def Pool.inTurn (pool : Pool Op Res ε α ρ σ) : Event ρ χ η → Bool
  | .start _ => pool.idle
  | _ => true

/-- The event starts no request. -/
def Event.continues : Event ρ χ η → Bool
  | .start _ => false
  | _ => true

theorem Pool.inTurn_of_continues {event : Event ρ χ η} (h : event.continues = true)
    (pool : Pool Op Res ε α ρ σ) : pool.inTurn event = true := by
  cases event with
  | start request => cases h
  | _ => rfl

namespace Discipline

variable (svc : Service Op Res ε α ρ χ η σ) (D : Discipline Op ε α ρ σ)

/-- The obligations of a discipline for requests one after another. -/
structure SoundInTurn : Prop where
  rely_refl : ∀ request i s, D.rely request i s s
  rely_trans : ∀ request i s s' s'', D.rely request i s s' → D.rely request i s' s'' →
    D.rely request i s s''
  permitted : ∀ request i op s, D.permitted request i op s
  guarantee_unused : ∀ request i j s s', i ≠ j → D.guarantee request i s s' →
    D.unused j s → D.unused j s'
  close_inv : ∀ i s, D.inv s → D.inv (svc.close i s)
  close_unused : ∀ i j s, i ≠ j → D.unused j s → D.unused j (svc.close i s)
  answer_stable : ∀ request i result, D.Stable request i (D.answer request i result)
  outside_rely : ∀ change s s', svc.outside change s = some s' → D.inv s →
    ∀ request i, D.rely request i s s'
  outside_unused : ∀ change s s', svc.outside change s = some s' →
    ∀ i, D.unused i s → D.unused i s'
  handler_safe : ∀ request i, D.Triple svc request i (D.unused i) (svc.handler request)
    (D.answer request i)

/-- A request starts when none is running, and outside changes keep the
    invariant. -/
def InTurn (pool : Pool Op Res ε α ρ σ) (event : Event ρ χ η) : Prop :=
  pool.inTurn event = true ∧
    ∀ change s, event = .outside change → svc.outside change pool.shared = some s → D.inv s

/-- At most one request is running, and its assertions hold. -/
structure Turns (pool : Pool Op Res ε α ρ σ) : Prop where
  inv : D.inv pool.shared
  unused : ∀ i, pool.threads.length ≤ i → D.unused i pool.shared
  running : ∀ i request program, pool.Runs i request program →
    D.Safe svc request i (D.answer request i) program pool.shared
  single : ∀ i j request request' program program', pool.Runs i request program →
    pool.Runs j request' program' → i = j

variable {svc D} {pool final : Pool Op Res ε α ρ σ} {event : Event ρ χ η}

theorem turns_initial {s : σ} (hinv : D.inv s) (hunused : ∀ i, D.unused i s) :
    D.Turns svc (Pool.initial s) where
  inv := hinv
  unused i _ := hunused i
  running i request program h := by simp [Pool.Runs] at h
  single i j request request' program program' h := by simp [Pool.Runs] at h

/-- The only running request moves on. -/
theorem turns_update (h : D.Turns svc pool) {i : Nat} {request : ρ}
    {program : Program Op Res ε α} {status : Status Op Res ε α} {s : σ}
    (hruns : pool.Runs i request program) (hinv : D.inv s)
    (hunused : ∀ j, i ≠ j → D.unused j pool.shared → D.unused j s)
    (hrunning : ∀ program, status = .running program →
      D.Safe svc request i (D.answer request i) program s) :
    D.Turns svc (pool.update i status s) where
  inv := hinv
  unused j hj := by
    rw [Service.update_length] at hj
    have hij : i ≠ j := by
      rintro rfl
      exact absurd (Service.lt_length_of_getElem hruns) (Nat.not_lt.mpr hj)
    exact hunused j hij (h.unused j hj)
  running j request' program' hj := by
    rcases Service.thread_update hruns hj with ⟨rfl, rfl, hstatus⟩ | ⟨hij, hj'⟩
    · exact hrunning program' hstatus.symm
    · exact absurd (h.single i j _ _ _ _ hruns hj') hij
  single j k request₁ request₂ program₁ program₂ hj hk := by
    have hrest : ∀ {l request' program'}, (pool.update i status s).Runs l request' program' →
        i = l := by
      intro l request' program' hl
      rcases Service.thread_update hruns hl with ⟨hil, _⟩ | ⟨_, hl'⟩
      · exact hil
      · exact h.single i l _ _ _ _ hruns hl'
    exact (hrest hj).symm.trans (hrest hk)

theorem turns_next (hsound : D.SoundInTurn svc) (h : D.Turns svc pool)
    (hturn : InTurn svc D pool event) (hnext : svc.next pool event = some final) :
    D.Turns svc final := by
  cases Service.move_of_next hnext with
  | start request =>
      have hidle := Pool.idle_iff.mp hturn.1
      have hnew : ∀ {i request' program},
          (pool.threads ++ [⟨request, .running (svc.handler request)⟩])[i]? =
            some (⟨request', .running program⟩ : Thread Op Res ε α ρ) →
          i = pool.threads.length ∧ request' = request ∧ program = svc.handler request := by
        intro i request' program hi
        rcases Service.thread_start hi with hbefore | ⟨hlength, hrequest, hstatus⟩
        · exact absurd hbefore (hidle i request' program)
        · exact ⟨hlength, hrequest, Status.running.inj hstatus⟩
      refine ⟨h.inv, fun i hi => h.unused i (by simp at hi; omega), ?_, ?_⟩
      · intro i request' program hi
        obtain ⟨rfl, rfl, rfl⟩ := hnew hi
        exact hsound.handler_safe _ _ _ h.inv (h.unused _ (Nat.le_refl _))
      · intro i j request₁ request₂ program₁ program₂ hi hj
        exact (hnew hi).1.trans (hnew hj).1.symm
  | exec hthread hexec =>
      obtain ⟨_, hsteps⟩ := h.running _ _ _ hthread _ h.inv (hsound.rely_refl _ _ _)
      obtain ⟨hinv, hguarantee, hsafe⟩ := hsteps (hsound.permitted _ _ _ _) _ _ _ hexec
      refine turns_update h hthread hinv
        (fun j hij => hsound.guarantee_unused _ _ j _ _ hij hguarantee) fun program heq => ?_
      cases heq
      exact hsafe
  | answer hthread _ =>
      refine turns_update h hthread (hsound.close_inv _ _ h.inv)
        (fun j hij => hsound.close_unused _ j _ hij) fun program heq => ?_
      cases heq
  | stop hthread =>
      refine turns_update h hthread (hsound.close_inv _ _ h.inv)
        (fun j hij => hsound.close_unused _ j _ hij) fun program heq => ?_
      cases heq
  | @outside change s hchange =>
      refine ⟨hturn.2 change s rfl hchange, fun i hi => ?_, fun i request program hi => ?_,
        h.single⟩
      · exact hsound.outside_unused _ _ _ hchange i (h.unused i hi)
      · exact (h.running i request program hi).rely (hsound.rely_trans request i)
          (hsound.answer_stable request i) (hturn.2 change s rfl hchange)
          (hsound.outside_rely _ _ _ hchange h.inv request i)

/-- What the running request knows at its next statement. -/
theorem Turns.known (hsound : D.SoundInTurn svc) (h : D.Turns svc pool) {i : Nat} {request : ρ}
    {op : Op} {next : Res op → Program Op Res ε α}
    (hruns : pool.Runs i request (.step op next)) : D.known request i op pool.shared :=
  (h.running i request _ hruns pool.shared h.inv (hsound.rely_refl request i _)).1

/-- A request that has raised an error has ended as its handler promises. -/
theorem Turns.failed (h : D.Turns svc pool) {i : Nat} {request : ρ} {error : ε}
    (hruns : pool.Runs i request (.fail error)) :
    D.answer request i (.error error) pool.shared :=
  h.running i request _ hruns

end Discipline

end StatementProgram
