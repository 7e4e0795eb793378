import SoaHomework.Interleaving
import SoaHomework.ProgramRuns

/-!
# Histories of a service

The state of a pool does not show what its requests have done. Along a run the
requests are kept (`thread_kept`), and the statements that are marked, such
as a commit that has succeeded, can be counted: what every path through a handler
says of its result and of the number of marked statements on it, holds of every
request that has been answered (`Marked.run`).
-/

namespace StatementProgram

variable {Op : Type} {Res : Op → Type} {ε α β ρ χ η σ : Type}

/-! ## Marked statements of a program -/

namespace Program

variable {mark : (op : Op) → Res op → Bool} {fits : Except ε α → Nat → Prop}

/-- Every path through the program, after `n` marked statements, ends in a result
    that fits the number of marked statements in all. -/
def Counts (mark : (op : Op) → Res op → Bool) (fits : Except ε α → Nat → Prop) (n : Nat) :
    Program Op Res ε α → Prop
  | .ret value => fits (.ok value) n
  | .fail error => fits (.error error) n
  | .step op next => ∀ answer, (next answer).Counts mark fits (n + (mark op answer).toNat)

/-- There is a path, so a result fits a number that is no smaller. -/
theorem Counts.reaches [∀ op, Nonempty (Res op)] {n : Nat} {p : Program Op Res ε α}
    (h : p.Counts mark fits n) : ∃ result m, n ≤ m ∧ fits result m := by
  induction p generalizing n with
  | ret value => exact ⟨_, n, Nat.le_refl n, h⟩
  | fail error => exact ⟨_, n, Nat.le_refl n, h⟩
  | step op next ih =>
      obtain ⟨answer⟩ : Nonempty (Res op) := inferInstance
      obtain ⟨result, m, hm, hfits⟩ := ih answer (h answer)
      exact ⟨result, m, Nat.le_of_add_right_le hm, hfits⟩

/-- A first part without marked statements. -/
theorem counts_after {n : Nat} {p : Program Op Res ε β} {f : β → Program Op Res ε α}
    (hp : p.Uses fun op => ∀ answer, mark op answer = false)
    (herror : ∀ error, fits (.error error) n) (hf : ∀ value, (f value).Counts mark fits n) :
    (p >>= f).Counts mark fits n := by
  induction p with
  | ret value => exact hf value
  | fail error => exact herror error
  | step op next ih =>
      intro answer
      rw [hp.1 answer]
      exact ih answer (hp.2 answer)

end Program

namespace Service

variable {svc : Service Op Res ε α ρ χ η σ} {allowed : Pool Op Res ε α ρ σ → Event ρ χ η → Prop}
  {pool final : Pool Op Res ε α ρ σ} {event : Event ρ χ η}

/-! ## Requests are kept -/

theorem thread_kept (h : svc.next pool event = some final) {i : Nat}
    {thread : Thread Op Res ε α ρ} (hthread : pool.threads[i]? = some thread) :
    ∃ after, final.threads[i]? = some after ∧ after.request = thread.request := by
  have hupdate : ∀ {j before status s}, pool.threads[j]? = some before →
      ∃ after, (pool.update j status s).threads[i]? = some after ∧
        after.request = thread.request := by
    intro j before status s hj
    by_cases hij : j = i
    · subst hij
      exact ⟨_, update_self hthread status s, rfl⟩
    · exact ⟨thread, (update_other hij status s).trans hthread, rfl⟩
  cases move_of_next h with
  | start request =>
      exact ⟨thread, (List.getElem?_append_left (lt_length_of_getElem hthread)).trans hthread, rfl⟩
  | exec hruns _ => exact hupdate hruns
  | answer hruns _ => exact hupdate hruns
  | stop hruns => exact hupdate hruns
  | outside _ => exact ⟨thread, hthread, rfl⟩

/-! ## Marked statements of a run -/

section Marked

variable (svc) (mark : (op : Op) → Res op → Bool) (fits : ρ → Except ε α → Nat → Prop)

/-- The request that executes a marked statement in the step. -/
def marks (pool : Pool Op Res ε α ρ σ) : Event ρ χ η → Option Nat
  | .step i choice =>
      match pool.program? i with
      | some (.step op _) =>
          (svc.exec i op choice pool.shared).bind fun result =>
            if mark op result.1 then some i else none
      | _ => none
  | _ => none

/-- The requests that execute marked statements along a run, in order. -/
def marked (pool : Pool Op Res ε α ρ σ) : List (Event ρ χ η) → List Nat
  | [] => []
  | event :: events => (svc.marks mark pool event).toList ++
      match svc.next pool event with
      | some pool' => marked pool' events
      | none => []

/-- What a request that has executed `n` marked statements has come to. -/
def Counted (request : ρ) (n : Nat) : Status Op Res ε α → Prop
  | .running program => program.Counts mark (fits request) n
  | .answered result => fits request result n
  | .stopped => ∃ program : Program Op Res ε α, program.Counts mark (fits request) n

/-- Every request has executed `count` marked statements. -/
structure Marked (count : Nat → Nat) (pool : Pool Op Res ε α ρ σ) : Prop where
  unused : ∀ i, pool.threads.length ≤ i → count i = 0
  counted : ∀ i request status, pool.threads[i]? = some ⟨request, status⟩ →
    Counted mark fits request (count i) status

variable {svc} {mark} {fits} {count : Nat → Nat}

theorem marked_initial (s : σ) :
    Marked mark fits (fun _ => 0) (Pool.initial s : Pool Op Res ε α ρ σ) where
  unused _ _ := rfl
  counted i request status h := by simp at h

/-- Request `i` goes on to `status`, and executes `n` marked statements in that. -/
theorem Marked.update (h : Marked mark fits count pool) {i n : Nat}
    {thread : Thread Op Res ε α ρ} (hthread : pool.threads[i]? = some thread)
    {status : Status Op Res ε α} {s : σ}
    (hstatus : Counted mark fits thread.request (count i + n) status) :
    Marked mark fits (fun j => count j + if j = i then n else 0) (pool.update i status s) where
  unused j hj := by
    rw [update_length] at hj
    have hne : j ≠ i := by
      rintro rfl
      exact absurd (lt_length_of_getElem hthread) (Nat.not_lt.mpr hj)
    rw [if_neg hne, h.unused j hj]
  counted j request status' hj := by
    rcases thread_update hthread hj with ⟨rfl, rfl, rfl⟩ | ⟨hij, hj'⟩
    · rw [if_pos rfl]
      exact hstatus
    · rw [if_neg (Ne.symm hij)]
      exact h.counted j request status' hj'

/-- Request `i` ends. -/
theorem Marked.close (h : Marked mark fits count pool) {i : Nat}
    {thread : Thread Op Res ε α ρ} (hthread : pool.threads[i]? = some thread)
    {status : Status Op Res ε α} {s : σ}
    (hstatus : Counted mark fits thread.request (count i) status) :
    Marked mark fits count (pool.update i status s) := by
  have hupdate := h.update (n := 0) (s := s) hthread hstatus
  simpa using hupdate

theorem Marked.next (hhandler : ∀ request, (svc.handler request).Counts mark (fits request) 0)
    (h : Marked mark fits count pool) (hnext : svc.next pool event = some final) :
    Marked mark fits (fun i => count i + (svc.marks mark pool event).toList.count i) final := by
  have hnone : ∀ {pool' : Pool Op Res ε α ρ σ}, svc.marks mark pool event = none →
      Marked mark fits count pool' →
      Marked mark fits (fun i => count i + (svc.marks mark pool event).toList.count i) pool' := by
    intro pool' hmarks hpool'
    simpa [hmarks] using hpool'
  cases move_of_next hnext with
  | start request =>
      refine hnone rfl ⟨fun i hi => h.unused i ?_, fun i request' status hi => ?_⟩
      · rw [List.length_append] at hi
        exact Nat.le_of_add_right_le hi
      · rcases thread_start hi with hbefore | ⟨rfl, rfl, rfl⟩
        · exact h.counted i request' status hbefore
        · rw [h.unused _ (Nat.le_refl _)]
          exact hhandler request'
  | @exec i choice request op next answer s hthread hexec =>
      have hmarks : (svc.marks mark pool (.step i choice)).toList =
          if mark op answer then [i] else [] := by
        simp only [marks, program?_eq_some.mpr ⟨request, hthread⟩, hexec, Option.bind_some]
        split
        · rfl
        · rfl
      have hcount : (fun j => count j + (svc.marks mark pool (.step i choice)).toList.count j) =
          fun j => count j + if j = i then (mark op answer).toNat else 0 := by
        funext j
        rw [hmarks]
        cases mark op answer with
        | false => simp
        | true =>
            by_cases hij : j = i
            · simp [hij]
            · simp [hij, Ne.symm hij]
      rw [hcount]
      exact h.update hthread (h.counted i request _ hthread answer)
  | @answer i choice request program result hthread houtcome =>
      have hcounted := h.counted i request _ hthread
      cases program with
      | ret value =>
          cases houtcome
          refine hnone ?_ (h.close hthread hcounted)
          simp only [marks, program?_eq_some.mpr ⟨request, hthread⟩]
      | fail error =>
          cases houtcome
          refine hnone ?_ (h.close hthread hcounted)
          simp only [marks, program?_eq_some.mpr ⟨request, hthread⟩]
      | step op next => cases houtcome
  | @stop i request program hthread =>
      exact hnone rfl (h.close hthread ⟨program, h.counted i request _ hthread⟩)
  | outside _ => exact hnone rfl ⟨h.unused, h.counted⟩

/-- The marked statements of a whole run. -/
theorem Marked.run (hhandler : ∀ request, (svc.handler request).Counts mark (fits request) 0)
    {events : List (Event ρ χ η)} (h : Marked mark fits count pool)
    (hrun : svc.run pool events = some final) :
    Marked mark fits (fun i => count i + (svc.marked mark pool events).count i) final := by
  induction events generalizing pool count with
  | nil =>
      simp only [Service.run, Option.some.injEq] at hrun
      subst hrun
      exact h
  | cons event events ih =>
      simp only [Service.run, Option.bind_eq_some_iff] at hrun
      obtain ⟨middle, hnext, hrest⟩ := hrun
      have hfinal := ih (h.next hhandler hnext) hrest
      simpa only [marked, hnext, List.count_append, Nat.add_assoc] using hfinal

/-- The marked statements of a run from the start. -/
theorem marked_run (hhandler : ∀ request, (svc.handler request).Counts mark (fits request) 0)
    {s : σ} {events : List (Event ρ χ η)}
    (hrun : svc.run (Pool.initial s) events = some final) :
    Marked mark fits (svc.marked mark (Pool.initial s) events).count final := by
  have hstart : Marked mark fits (fun _ => 0) (Pool.initial s) := marked_initial s
  have hmarked := hstart.run hhandler hrun
  simpa only [Nat.zero_add] using hmarked

/-- No request executes more marked statements than a result can fit. -/
theorem Marked.count_le [∀ op, Nonempty (Res op)] (h : Marked mark fits count pool) {most : Nat}
    (hmost : ∀ request result n, fits request result n → n ≤ most) (i : Nat) : count i ≤ most := by
  have hreaches : ∀ {request} {program : Program Op Res ε α},
      program.Counts mark (fits request) (count i) → count i ≤ most := by
    intro request program hcounts
    obtain ⟨result, m, hm, hfits⟩ := hcounts.reaches
    exact Nat.le_trans hm (hmost request result m hfits)
  cases hthread : pool.threads[i]? with
  | none =>
      rw [h.unused i (List.getElem?_eq_none_iff.mp hthread)]
      exact Nat.zero_le most
  | some thread =>
      obtain ⟨request, program | result | _⟩ := thread
      · exact hreaches (h.counted i request _ hthread)
      · exact hmost request result _ (h.counted i request _ hthread)
      · obtain ⟨program, hcounts⟩ := h.counted i request _ hthread
        exact hreaches hcounts

end Marked

end Service

end StatementProgram
