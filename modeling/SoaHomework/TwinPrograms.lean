import SoaHomework.ProgramRuns

/-!
# Two programs side by side

Two programs are run from related states, each to its end. They are twins if both
return or both raise, with related values and in related states again. The errors
themselves may differ.
-/

namespace StatementProgram

namespace Program

variable {Op : Type} {Res : Op → Type} {ε α α' β β' σ τ : Type}

/-- From states related by `pre` both programs return, related by `post`, or both
    raise, in states related by `raised`, if both come to an end. -/
def Twins (exec : (op : Op) → σ → Option (Res op × σ))
    (exec' : (op : Op) → τ → Option (Res op × τ)) (raised : σ → τ → Prop)
    (pre : σ → τ → Prop) (p : Program Op Res ε α) (p' : Program Op Res ε α')
    (post : α → α' → σ → τ → Prop) : Prop :=
  ∀ s t, pre s t → ∀ result s', p.alone exec s = some (result, s') →
    ∀ result' t', p'.alone exec' t = some (result', t') →
      (∃ value value', result = .ok value ∧ result' = .ok value' ∧ post value value' s' t') ∨
        ∃ error error', result = .error error ∧ result' = .error error' ∧ raised s' t'

namespace Twins

variable {exec : (op : Op) → σ → Option (Res op × σ)}
  {exec' : (op : Op) → τ → Option (Res op × τ)} {raised pre : σ → τ → Prop}

theorem ret {value : α} {value' : α'} {post : α → α' → σ → τ → Prop}
    (h : ∀ s t, pre s t → post value value' s t) :
    Twins exec exec' raised pre (.ret value : Program Op Res ε α) (.ret value') post := by
  rintro s t hpre _ _ ⟨⟩ _ _ ⟨⟩
  exact Or.inl ⟨value, value', rfl, rfl, h s t hpre⟩

theorem fail {error error' : ε} {post : α → α' → σ → τ → Prop}
    (h : ∀ s t, pre s t → raised s t) :
    Twins exec exec' raised pre (.fail error : Program Op Res ε α) (.fail error') post := by
  rintro s t hpre _ _ ⟨⟩ _ _ ⟨⟩
  exact Or.inr ⟨error, error', rfl, rfl, h s t hpre⟩

theorem step {op op' : Op} {next : Res op → Program Op Res ε α}
    {next' : Res op' → Program Op Res ε α'} {post : α → α' → σ → τ → Prop}
    (middle : Res op → Res op' → σ → τ → Prop)
    (hop : ∀ s t, pre s t → ∀ answer s', exec op s = some (answer, s') →
      ∀ answer' t', exec' op' t = some (answer', t') → middle answer answer' s' t')
    (hnext : ∀ answer answer', Twins exec exec' raised (middle answer answer') (next answer)
      (next' answer') post) :
    Twins exec exec' raised pre (.step op next) (.step op' next') post := by
  intro s t hpre result s' hrun result' t' hrun'
  simp only [alone] at hrun hrun'
  cases hexec : exec op s with
  | none =>
      rw [hexec] at hrun
      cases hrun
  | some x =>
      cases hexec' : exec' op' t with
      | none =>
          rw [hexec'] at hrun'
          cases hrun'
      | some y =>
          rw [hexec] at hrun
          rw [hexec'] at hrun'
          exact hnext x.1 y.1 _ _ (hop s t hpre _ _ hexec _ _ hexec') _ _ hrun _ _ hrun'

theorem bind {p : Program Op Res ε α} {p' : Program Op Res ε α'} {f : α → Program Op Res ε β}
    {f' : α' → Program Op Res ε β'} {post : β → β' → σ → τ → Prop}
    (middle : α → α' → σ → τ → Prop) (h : Twins exec exec' raised pre p p' middle)
    (hf : ∀ value value', Twins exec exec' raised (middle value value') (f value) (f' value')
      post) :
    Twins exec exec' raised pre (p >>= f) (p' >>= f') post := by
  intro s t hpre result s' hrun result' t' hrun'
  rw [alone_bind] at hrun hrun'
  cases hp : p.alone exec s with
  | none =>
      rw [hp] at hrun
      cases hrun
  | some x =>
      cases hp' : p'.alone exec' t with
      | none =>
          rw [hp'] at hrun'
          cases hrun'
      | some y =>
          obtain ⟨end₁, s₁⟩ := x
          obtain ⟨end₂, t₁⟩ := y
          rw [hp] at hrun
          rw [hp'] at hrun'
          rcases h s t hpre _ _ hp _ _ hp' with
            ⟨a, b, rfl, rfl, hmiddle⟩ | ⟨a, b, rfl, rfl, hraised⟩
          · exact hf a b s₁ t₁ hmiddle _ _ hrun _ _ hrun'
          · cases hrun
            cases hrun'
            exact Or.inr ⟨a, b, rfl, rfl, hraised⟩

theorem mono {p : Program Op Res ε α} {p' : Program Op Res ε α'} {pre' : σ → τ → Prop}
    {post post' : α → α' → σ → τ → Prop} (h : Twins exec exec' raised pre' p p' post')
    (hpre : ∀ s t, pre s t → pre' s t)
    (hpost : ∀ value value' s t, post' value value' s t → post value value' s t) :
    Twins exec exec' raised pre p p' post := by
  intro s t hs result s' hrun result' t' hrun'
  rcases h s t (hpre s t hs) _ _ hrun _ _ hrun' with ⟨a, b, ha, hb, hend⟩ | herror
  · exact Or.inl ⟨a, b, ha, hb, hpost a b s' t' hend⟩
  · exact Or.inr herror

/-- What does not depend on the states may be assumed. -/
theorem assume {fact : Prop} {p : Program Op Res ε α} {p' : Program Op Res ε α'}
    {post : α → α' → σ → τ → Prop} (hfact : ∀ s t, pre s t → fact)
    (h : fact → Twins exec exec' raised pre p p' post) :
    Twins exec exec' raised pre p p' post :=
  fun s t hpre => h (hfact s t hpre) s t hpre

/-- Both go on with the same value. -/
theorem bind_same {p p' : Program Op Res ε α} {f : α → Program Op Res ε β}
    {f' : α → Program Op Res ε β'} {R : σ → τ → Prop} {post : β → β' → σ → τ → Prop}
    (h : Twins exec exec' raised pre p p' fun value value' s t => value' = value ∧ R s t)
    (hf : ∀ value, Twins exec exec' raised R (f value) (f' value) post) :
    Twins exec exec' raised pre (p >>= f) (p' >>= f') post := by
  apply bind _ h
  intro value value'
  apply assume fun s t h => h.left
  rintro rfl
  exact (hf value').mono (fun s t h => h.right) fun _ _ _ _ h => h

/-- Statements that answer alike in related states make a program its own twin. -/
theorem of_uses {Q : Op → Prop} {R : σ → τ → Prop} (hraised : ∀ s t, R s t → raised s t)
    (hstep : ∀ op s t, Q op → R s t → ∀ answer s', exec op s = some (answer, s') →
      ∀ answer' t', exec' op t = some (answer', t') → answer' = answer ∧ R s' t')
    {p : Program Op Res ε α} (hp : p.Uses Q) :
    Twins exec exec' raised R p p fun value value' s t => value' = value ∧ R s t := by
  induction p with
  | ret value => exact ret fun s t h => ⟨rfl, h⟩
  | fail error => exact fail hraised
  | step op next ih =>
      obtain ⟨hop, hnext⟩ := hp
      have hperform : Twins exec exec' raised R (perform op : Program Op Res ε _) (perform op)
          fun answer answer' s t => answer' = answer ∧ R s t := by
        apply step fun answer answer' s t => answer' = answer ∧ R s t
        · intro s t h
          exact hstep op s t hop h
        · intro answer answer'
          exact ret fun s t h => h
      exact bind_same hperform fun answer => ih answer (hnext answer)

end Twins

end Program

end StatementProgram
