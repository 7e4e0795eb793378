import SoaHomework.Interleaving

/-!
# Refinement between services

Two services run the same handlers over different shared states. When every
statement of the first can be followed by the second with the same answer, a run
of the first is matched by a run of the second in which each request is just as
far and has been answered alike. A change made from outside may have no
counterpart, and is then left out of the matching run.
-/

namespace StatementProgram

variable {Op : Type} {Res : Op → Type} {ε α ρ χ χ' η η' σ τ : Type}

/-- What the second service does when the first makes the change. -/
def Event.followed (choice : χ → χ') (change : η → Option η') :
    Event ρ χ η → Option (Event ρ χ' η')
  | .start request => some (.start request)
  | .step i c => some (.step i (choice c))
  | .stop i => some (.stop i)
  | .outside e => (change e).map .outside

namespace Service

/-- States related by `R` stay related when `svc` takes a step and `abs` follows. -/
structure Refines (svc : Service Op Res ε α ρ χ η σ) (abs : Service Op Res ε α ρ χ' η' τ)
    (R : σ → τ → Prop) (choice : χ → χ') (change : η → Option η') : Prop where
  handler : abs.handler = svc.handler
  exec : ∀ {i op c s t answer s'}, R s t → svc.exec i op c s = some (answer, s') →
    ∃ t', abs.exec i op (choice c) t = some (answer, t') ∧ R s' t'
  close : ∀ {s t} (i : Nat), R s t → R (svc.close i s) (abs.close i t)
  silent : ∀ {e s t s'}, R s t → svc.outside e s = some s' → change e = none → R s' t
  outside : ∀ {e e' s t s'}, R s t → svc.outside e s = some s' → change e = some e' →
    ∃ t', abs.outside e' t = some t' ∧ R s' t'

/-- The same requests, equally far, over related states. -/
structure Matches (R : σ → τ → Prop) (pool : Pool Op Res ε α ρ σ) (pool' : Pool Op Res ε α ρ τ) :
    Prop where
  threads : pool'.threads = pool.threads
  shared : R pool.shared pool'.shared

variable {svc : Service Op Res ε α ρ χ η σ} {abs : Service Op Res ε α ρ χ' η' τ}
  {R : σ → τ → Prop} {choice : χ → χ'} {change : η → Option η'}
  {pool final : Pool Op Res ε α ρ σ} {pool' : Pool Op Res ε α ρ τ}

theorem Matches.update (h : Matches R pool pool') {s : σ} {t : τ} (hshared : R s t) (i : Nat)
    (status : Status Op Res ε α) : Matches R (pool.update i status s) (pool'.update i status t) :=
  ⟨congrArg (fun threads => threads.modify i fun thread => { thread with status := status })
    h.threads, hshared⟩

theorem Matches.program? (h : Matches R pool pool') (i : Nat) :
    pool'.program? i = pool.program? i := by
  rw [Pool.program?, Pool.program?, h.threads]

/-- One step of the first service is followed by one or none of the second. -/
theorem Refines.next (hrefines : svc.Refines abs R choice change) (h : Matches R pool pool')
    {event : Event ρ χ η} (hnext : svc.next pool event = some final) :
    (event.followed choice change = none ∧ Matches R final pool') ∨
      ∃ event' final', event.followed choice change = some event' ∧
        abs.next pool' event' = some final' ∧ Matches R final final' := by
  cases move_of_next hnext with
  | start request =>
      refine Or.inr ⟨.start request, _, rfl, rfl, ?_, h.shared⟩
      simp only [h.threads, hrefines.handler]
  | @exec i c request op next answer s hthread hexec =>
      obtain ⟨t, hexec', hrelated⟩ := hrefines.exec h.shared hexec
      refine Or.inr ⟨.step i (choice c), _, rfl, ?_, h.update hrelated i _⟩
      have hprogram : pool'.program? i = some (.step op next) :=
        (h.program? i).trans (program?_eq_some.mpr ⟨request, hthread⟩)
      simp only [Service.next, hprogram, hexec', Option.map_some]
  | @answer i c request program result hthread houtcome =>
      refine Or.inr ⟨.step i (choice c), _, rfl, ?_, h.update (hrefines.close i h.shared) i _⟩
      have hprogram : pool'.program? i = some program :=
        (h.program? i).trans (program?_eq_some.mpr ⟨request, hthread⟩)
      cases program with
      | ret value => simp only [Service.next, hprogram, houtcome, Option.map_some]
      | fail error => simp only [Service.next, hprogram, houtcome, Option.map_some]
      | step op next => cases houtcome
  | @stop i request program hthread =>
      refine Or.inr ⟨.stop i, _, rfl, ?_, h.update (hrefines.close i h.shared) i _⟩
      have hprogram : pool'.program? i = some program :=
        (h.program? i).trans (program?_eq_some.mpr ⟨request, hthread⟩)
      simp only [Service.next, Pool.isRunning, hprogram, Option.isSome_some, if_true]
  | @outside e s hchange =>
      cases he : change e with
      | none =>
          refine Or.inl ⟨?_, h.threads, hrefines.silent h.shared hchange he⟩
          simp only [Event.followed, he, Option.map_none]
      | some e' =>
          obtain ⟨t, hchange', hrelated⟩ := hrefines.outside h.shared hchange he
          refine Or.inr ⟨.outside e', ⟨t, pool'.threads⟩, ?_, ?_, h.threads, hrelated⟩
          · simp only [Event.followed, he, Option.map_some]
          · simp only [Service.next, hchange', Option.map_some]

/-- A run of the first service is matched by a run of the second. -/
theorem Refines.run (hrefines : svc.Refines abs R choice change) {events : List (Event ρ χ η)}
    (h : Matches R pool pool') (hrun : svc.run pool events = some final) :
    ∃ final', abs.run pool' (events.filterMap (Event.followed choice change)) = some final' ∧
      Matches R final final' := by
  induction events generalizing pool pool' with
  | nil =>
      simp only [Service.run, Option.some.injEq] at hrun
      subst hrun
      exact ⟨pool', rfl, h⟩
  | cons event events ih =>
      simp only [Service.run, Option.bind_eq_some_iff] at hrun
      obtain ⟨middle, hnext, hrest⟩ := hrun
      rcases hrefines.next h hnext with ⟨hsilent, hmiddle⟩ | ⟨event', middle', he, hnext', hmiddle⟩
      · rw [List.filterMap_cons_none hsilent]
        exact ih hmiddle hrest
      · obtain ⟨final', hrun', hfinal⟩ := ih hmiddle hrest
        refine ⟨final', ?_, hfinal⟩
        rw [List.filterMap_cons_some he]
        simp only [Service.run, hnext', Option.bind_some, hrun']

end Service

end StatementProgram
