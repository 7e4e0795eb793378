import SoaHomework.RelyGuarantee

/-!
# What later requests can rely on

A fact that has come to hold in the middle of a run, and that no request of the
discipline destroys, can be relied on by all requests that start from then on. They
are verified once more with the fact in the invariant (`Discipline.since`), the
requests that are still running need no new proof, and in the rest of the run the
later requests are answered accordingly (`Discipline.later_answers`).
-/

namespace StatementProgram.Discipline

variable {Op : Type} {Res : Op → Type} {ε ε' α β ρ χ η σ : Type}
  {svc : Service Op Res ε α ρ χ η σ} {D : Discipline Op ε α ρ σ} {n : Nat} {fact : σ → Prop}
  {later : ρ → Nat → Except ε α → σ → Prop}

/-- The discipline while `fact` holds: from request `n` on the answers are as `later`
    says. -/
def since (D : Discipline Op ε α ρ σ) (n : Nat) (fact : σ → Prop)
    (later : ρ → Nat → Except ε α → σ → Prop) : Discipline Op ε α ρ σ where
  inv s := D.inv s ∧ fact s
  rely := D.rely
  guarantee := D.guarantee
  unused := D.unused
  compatible := D.compatible
  permitted := D.permitted
  known := D.known
  answer request i result s := if i < n then D.answer request i result s
    else later request i result s

theorem since_answer_before {i : Nat} (hi : i < n) (request : ρ) :
    (D.since n fact later).answer request i = D.answer request i := by
  funext result s
  exact if_pos hi

theorem since_answer_after {i : Nat} (hi : ¬i < n) (request : ρ) :
    (D.since n fact later).answer request i = later request i := by
  funext result s
  exact if_neg hi

/-- What a service owes to requests that rely on `fact` and are answered as `later`
    says. -/
structure Lasting (svc : Service Op Res ε α ρ χ η σ) (D : Discipline Op ε α ρ σ) (n : Nat)
    (fact : σ → Prop) (later : ρ → Nat → Except ε α → σ → Prop) : Prop where
  guarantee : ∀ request i s s', D.inv s → D.guarantee request i s s' → fact s → fact s'
  close : ∀ i s, D.inv s → fact s → fact (svc.close i s)
  outside : ∀ change s s', svc.outside change s = some s' → D.inv s → fact s → fact s'
  guarantee_later : ∀ request request' i j result s s', i ≠ j → D.inv s →
    D.guarantee request i s s' → later request' j result s → later request' j result s'
  close_later : ∀ request i result s, D.inv s → later request i result s →
    later request i result (svc.close i s)
  later_stable : ∀ request i result, D.Stable request i (later request i result)
  later_safe : ∀ request i, n ≤ i → (D.since n fact later).Triple svc request i (D.unused i)
    (svc.handler request) (later request i)

section Lasting

variable (hlasting : Lasting svc D n fact later)
include hlasting

/-- A program that is safe without the fact is safe with it. -/
theorem Safe.since {request : ρ} {i : Nat} {post : Except ε' β → σ → Prop}
    {program : Program Op Res ε' β} {s : σ} (h : D.Safe svc request i post program s) :
    (D.since n fact later).Safe svc request i post program s := by
  induction program generalizing s with
  | ret value => exact h
  | fail error => exact h
  | step op next ih =>
      intro s₁ hinv hrely
      obtain ⟨hknown, hsteps⟩ := h s₁ hinv.1 hrely
      refine ⟨hknown, fun hpermitted choice answer s₂ hexec => ?_⟩
      obtain ⟨hinv₂, hguarantee, hrest⟩ := hsteps hpermitted choice answer s₂ hexec
      have hfact := hlasting.guarantee request i s₁ s₂ hinv.1 hguarantee hinv.2
      exact ⟨⟨hinv₂, hfact⟩, hguarantee, ih answer hrest⟩

theorem sound_since (hsound : D.Sound svc) : (D.since n fact later).Sound svc where
  rely_refl := hsound.rely_refl
  rely_trans := hsound.rely_trans
  guarantee_rely request request' i j s s' hij hcompatible hinv :=
    hsound.guarantee_rely request request' i j s s' hij hcompatible hinv.1
  guarantee_unused := hsound.guarantee_unused
  guarantee_answer request request' i j result s s' hij hinv hguarantee h := by
    by_cases hj : j < n
    · rw [since_answer_before hj] at h ⊢
      exact hsound.guarantee_answer request request' i j result s s' hij hinv.1 hguarantee h
    · rw [since_answer_after hj] at h ⊢
      exact hlasting.guarantee_later request request' i j result s s' hij hinv.1 hguarantee h
  close_inv i s hinv := ⟨hsound.close_inv i s hinv.1, hlasting.close i s hinv.1 hinv.2⟩
  close_guarantee request i s hinv := hsound.close_guarantee request i s hinv.1
  close_answer request i result s hinv h := by
    by_cases hi : i < n
    · rw [since_answer_before hi] at h ⊢
      exact hsound.close_answer request i result s hinv.1 h
    · rw [since_answer_after hi] at h ⊢
      exact hlasting.close_later request i result s hinv.1 h
  answer_stable request i result s s' hinv hrely h := by
    by_cases hi : i < n
    · rw [since_answer_before hi] at h ⊢
      exact hsound.answer_stable request i result s s' hinv.1 hrely h
    · rw [since_answer_after hi] at h ⊢
      exact hlasting.later_stable request i result s s' hinv.1 hrely h
  outside_inv change s s' hchange hinv :=
    ⟨hsound.outside_inv change s s' hchange hinv.1,
      hlasting.outside change s s' hchange hinv.1 hinv.2⟩
  outside_rely change s s' hchange hinv := hsound.outside_rely change s s' hchange hinv.1
  outside_unused := hsound.outside_unused
  handler_safe request i := by
    by_cases hi : i < n
    · rw [since_answer_before hi]
      exact fun s hinv hunused => (hsound.handler_safe request i s hinv.1 hunused).since hlasting
    · rw [since_answer_after hi]
      exact hlasting.later_safe request i (Nat.le_of_not_lt hi)

theorem holds_since {pool : Pool Op Res ε α ρ σ} (h : D.Holds svc pool)
    (hn : n = pool.threads.length) (hfact : fact pool.shared) :
    (D.since n fact later).Holds svc pool where
  inv := ⟨h.inv, hfact⟩
  unused := h.unused
  running i request program hruns := by
    have hi : i < n := hn ▸ Service.lt_length_of_getElem hruns
    rw [since_answer_before hi]
    exact (h.running i request program hruns).since hlasting
  answered i request result hanswered := by
    have hi : i < n := hn ▸ Service.lt_length_of_getElem hanswered
    rw [since_answer_before hi]
    exact h.answered i request result hanswered
  compatible := h.compatible

/-- The answers to requests that start when the fact holds already. -/
theorem later_answers (hsound : D.Sound svc) {first final : Pool Op Res ε α ρ σ}
    (h : D.Holds svc first) (hn : n = first.threads.length) (hfact : fact first.shared)
    (hsteps : svc.Steps D.Allowed first final) {i : Nat} {request : ρ} {result : Except ε α}
    (hi : n ≤ i) (hanswered : final.Answered i request result) :
    later request i result final.shared := by
  have hholds : (D.since n fact later).Holds svc final :=
    holds_steps (sound_since hlasting hsound) (hsteps.mono fun _ _ hallowed => hallowed)
      (holds_since hlasting h hn hfact)
  have hanswer := hholds.answered i request result hanswered
  rwa [since_answer_after (Nat.not_lt.mpr hi)] at hanswer

end Lasting

end StatementProgram.Discipline
