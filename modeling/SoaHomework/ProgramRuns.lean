import SoaHomework.StatementProgram

/-!
# Runs of one program

What a program can do when nothing else runs: a statement is executed with any
choice of the environment, and the program goes on with the answer. A run ends
with the program's value or with the error it raises. `RunsWith` also says which
choices the run has met.
-/

namespace StatementProgram.Program

variable {Op : Type} {Res : Op → Type} {ε ε' α β χ σ : Type}

inductive Runs (exec : (op : Op) → χ → σ → Option (Res op × σ)) :
    Program Op Res ε α → σ → Except ε α → σ → Prop where
  | ret (value : α) (s : σ) : Runs exec (.ret value) s (.ok value) s
  | fail (error : ε) (s : σ) : Runs exec (.fail error) s (.error error) s
  | step {op : Op} {next : Res op → Program Op Res ε α} {s s₁ s₂ : σ} {answer : Res op}
      {result : Except ε α} (choice : χ) (hexec : exec op choice s = some (answer, s₁))
      (hnext : Runs exec (next answer) s₁ result s₂) : Runs exec (.step op next) s result s₂

variable {exec : (op : Op) → χ → σ → Option (Res op × σ)} {s s' : σ}

@[simp] theorem runs_ret {value : α} {result : Except ε α} :
    Runs exec (.ret value) s result s' ↔ result = .ok value ∧ s' = s := by
  constructor
  · intro h
    cases h
    exact ⟨rfl, rfl⟩
  · rintro ⟨rfl, rfl⟩
    exact .ret value s'

@[simp] theorem runs_fail {error : ε} {result : Except ε α} :
    Runs exec (.fail error) s result s' ↔ result = .error error ∧ s' = s := by
  constructor
  · intro h
    cases h
    exact ⟨rfl, rfl⟩
  · rintro ⟨rfl, rfl⟩
    exact .fail error s'

theorem runs_step {op : Op} {next : Res op → Program Op Res ε α} {result : Except ε α} :
    Runs exec (.step op next) s result s' ↔
      ∃ choice answer s₁, exec op choice s = some (answer, s₁) ∧
        Runs exec (next answer) s₁ result s' := by
  constructor
  · intro h
    cases h with
    | step choice hexec hnext => exact ⟨choice, _, _, hexec, hnext⟩
  · rintro ⟨choice, answer, s₁, hexec, hnext⟩
    exact .step choice hexec hnext

/-- A sequence returns a value when both parts do. -/
theorem runs_bind_ok {p : Program Op Res ε α} {f : α → Program Op Res ε β} {value : β} :
    Runs exec (p >>= f) s (.ok value) s' ↔
      ∃ first s₁, Runs exec p s (.ok first) s₁ ∧ Runs exec (f first) s₁ (.ok value) s' := by
  induction p generalizing s with
  | ret first =>
      rw [ret_bind]
      constructor
      · intro h
        exact ⟨first, s, .ret first s, h⟩
      · rintro ⟨first', s₁, hfirst, hrest⟩
        obtain ⟨hvalue, rfl⟩ := runs_ret.mp hfirst
        cases hvalue
        exact hrest
  | fail error => simp
  | step op next ih =>
      simp only [step_bind, runs_step, ih]
      constructor
      · rintro ⟨choice, answer, s₁, hexec, first, s₂, hfirst, hrest⟩
        exact ⟨first, s₂, ⟨choice, answer, s₁, hexec, hfirst⟩, hrest⟩
      · rintro ⟨first, s₂, ⟨choice, answer, s₁, hexec, hfirst⟩, hrest⟩
        exact ⟨choice, answer, s₁, hexec, first, s₂, hfirst, hrest⟩

theorem runs_attempt {p : Program Op Res ε α} {outcome : Except ε α} :
    Runs exec (p.attempt : Program Op Res ε' (Except ε α)) s (.ok outcome) s' ↔
      Runs exec p s outcome s' := by
  induction p generalizing s with
  | ret value => simp
  | fail error => simp
  | step op next ih => simp only [attempt_step, runs_step, ih]

/-- A program that is run again after an error finds what the failed runs have
    left. -/
theorem runs_retry {P : σ → Prop} {Q : α → σ → Prop} {p : Program Op Res ε α}
    (herror : ∀ s error s', P s → Runs exec p s (.error error) s' → P s')
    (hok : ∀ s value s', P s → Runs exec p s (.ok value) s' → Q value s')
    (attempts : Nat) {value : α} (hs : P s) (h : Runs exec (p.retry attempts) s (.ok value) s') :
    Q value s' := by
  induction attempts generalizing s with
  | zero => exact hok s value s' hs h
  | succ attempts ih =>
      obtain ⟨outcome, s₁, hfirst, hrest⟩ := runs_bind_ok.mp h
      have hfirst' := runs_attempt.mp hfirst
      cases outcome with
      | ok first =>
          obtain ⟨hvalue, rfl⟩ := runs_ret.mp hrest
          cases hvalue
          exact hok s value s' hs hfirst'
      | error error => exact ih (herror s error s₁ hs hfirst') hrest

/-- A run in which every statement meets with the same choice. -/
theorem runs_of_alone (choice : χ) {p : Program Op Res ε α} {result : Except ε α}
    (h : p.alone (fun op => exec op choice) s = some (result, s')) : Runs exec p s result s' := by
  induction p generalizing s with
  | ret value =>
      cases h
      exact .ret value s'
  | fail error =>
      cases h
      exact .fail error s'
  | step op next ih =>
      simp only [alone] at h
      cases hexec : exec op choice s with
      | none =>
          rw [hexec] at h
          cases h
      | some executed =>
          rw [hexec] at h
          exact .step choice hexec (ih executed.1 h)

theorem exists_runs_of_alone (choice : χ) {p : Program Op Res ε α} {result : Except ε α}
    (h : (p.alone (fun op => exec op choice) s).map Prod.fst = some result) :
    ∃ s', Runs exec p s result s' := by
  obtain ⟨⟨result', s'⟩, halone, rfl⟩ := Option.map_eq_some_iff.mp h
  exact ⟨s', runs_of_alone choice halone⟩

/-! ## Runs with their choices -/

inductive RunsWith (exec : (op : Op) → χ → σ → Option (Res op × σ)) :
    List χ → Program Op Res ε α → σ → Except ε α → σ → Prop where
  | ret (value : α) (s : σ) : RunsWith exec [] (.ret value) s (.ok value) s
  | fail (error : ε) (s : σ) : RunsWith exec [] (.fail error) s (.error error) s
  | step {op : Op} {next : Res op → Program Op Res ε α} {s s₁ s₂ : σ} {answer : Res op}
      {result : Except ε α} {choices : List χ} (choice : χ)
      (hexec : exec op choice s = some (answer, s₁))
      (hnext : RunsWith exec choices (next answer) s₁ result s₂) :
      RunsWith exec (choice :: choices) (.step op next) s result s₂

theorem RunsWith.runs {choices : List χ} {p : Program Op Res ε α} {result : Except ε α}
    (h : RunsWith exec choices p s result s') : Runs exec p s result s' := by
  induction h with
  | ret value s => exact .ret value s
  | fail error s => exact .fail error s
  | step choice hexec _ ih => exact .step choice hexec ih

/-- A run of a sequence ends with the error of the first part, or is a run of
    each part. -/
theorem runsWith_bind {choices : List χ} {p : Program Op Res ε α} {f : α → Program Op Res ε β}
    {result : Except ε β} (h : RunsWith exec choices (p >>= f) s result s') :
    (∃ error, result = .error error ∧ RunsWith exec choices p s (.error error) s') ∨
      ∃ before after value s₁, choices = before ++ after ∧
        RunsWith exec before p s (.ok value) s₁ ∧ RunsWith exec after (f value) s₁ result s' := by
  induction p generalizing choices s with
  | ret value => exact Or.inr ⟨[], choices, value, s, rfl, .ret value s, h⟩
  | fail error =>
      cases h
      exact Or.inl ⟨error, rfl, .fail error _⟩
  | step op next ih =>
      cases h with
      | step choice hexec hnext =>
          rcases ih _ hnext with
            ⟨error, rfl, hfirst⟩ | ⟨before, after, value, s₁, rfl, hfirst, hrest⟩
          · exact Or.inl ⟨error, rfl, .step choice hexec hfirst⟩
          · exact Or.inr ⟨choice :: before, after, value, s₁, rfl, .step choice hexec hfirst, hrest⟩

/-- The run in which the statements meet with the given choices. -/
def aloneWith (exec : (op : Op) → χ → σ → Option (Res op × σ)) :
    List χ → Program Op Res ε α → σ → Option (Except ε α × σ)
  | [], .ret value, s => some (.ok value, s)
  | [], .fail error, s => some (.error error, s)
  | choice :: choices, .step op next, s =>
      match exec op choice s with
      | none => none
      | some (answer, s') => aloneWith exec choices (next answer) s'
  | _, _, _ => none

theorem runsWith_of_aloneWith {choices : List χ} {p : Program Op Res ε α} {result : Except ε α}
    (h : aloneWith exec choices p s = some (result, s')) : RunsWith exec choices p s result s' := by
  induction choices generalizing p s with
  | nil =>
      cases p with
      | ret value =>
          cases h
          exact .ret value s'
      | fail error =>
          cases h
          exact .fail error s'
      | step op next => cases h
  | cons choice choices ih =>
      cases p with
      | ret value => cases h
      | fail error => cases h
      | step op next =>
          simp only [aloneWith] at h
          cases hexec : exec op choice s with
          | none =>
              rw [hexec] at h
              cases h
          | some executed =>
              rw [hexec] at h
              exact .step choice hexec (ih h)

theorem exists_runsWith {choices : List χ} {p : Program Op Res ε α} {view : σ → β}
    {result : Except ε α} {value : β}
    (h : (aloneWith exec choices p s).map (fun r => (r.1, view r.2)) = some (result, value)) :
    ∃ s', RunsWith exec choices p s result s' ∧ view s' = value := by
  obtain ⟨⟨result', s'⟩, halone, heq⟩ := Option.map_eq_some_iff.mp h
  cases heq
  exact ⟨s', runsWith_of_aloneWith halone, rfl⟩

/-! ## Programs of certain statements -/

/-- Every statement of the program is one of `Q`. -/
def Uses (Q : Op → Prop) : Program Op Res ε α → Prop
  | .ret _ => True
  | .fail _ => True
  | .step op next => Q op ∧ ∀ answer, (next answer).Uses Q

section Uses

variable {Q : Op → Prop}

theorem Uses.mono {Q' : Op → Prop} {p : Program Op Res ε α} (h : ∀ op, Q op → Q' op)
    (hp : p.Uses Q) : p.Uses Q' := by
  induction p with
  | ret value => trivial
  | fail error => trivial
  | step op next ih =>
      obtain ⟨hop, hnext⟩ := hp
      exact ⟨h op hop, fun answer => ih answer (hnext answer)⟩

theorem uses_bind {p : Program Op Res ε α} {f : α → Program Op Res ε β} (hp : p.Uses Q)
    (hf : ∀ value, (f value).Uses Q) : (p >>= f).Uses Q := by
  induction p with
  | ret value => exact hf value
  | fail error => trivial
  | step op next ih =>
      obtain ⟨hop, hnext⟩ := hp
      exact ⟨hop, fun answer => ih answer (hnext answer)⟩

theorem uses_attempt {p : Program Op Res ε α} (hp : p.Uses Q) :
    (p.attempt : Program Op Res ε' (Except ε α)).Uses Q := by
  induction p with
  | ret value => trivial
  | fail error => trivial
  | step op next ih =>
      obtain ⟨hop, hnext⟩ := hp
      exact ⟨hop, fun answer => ih answer (hnext answer)⟩

theorem uses_retry {p : Program Op Res ε α} (hp : p.Uses Q) (attempts : Nat) :
    (p.retry attempts).Uses Q := by
  induction attempts with
  | zero => exact hp
  | succ attempts ih =>
      apply uses_bind (uses_attempt hp)
      intro outcome
      cases outcome with
      | ok value => trivial
      | error error => exact ih

/-- A relation that every statement of the program keeps relates the ends of its
    runs. -/
theorem Runs.preserves {R : σ → σ → Prop} (hrefl : ∀ s, R s s)
    (htrans : ∀ s s' s'', R s s' → R s' s'' → R s s'')
    (hstep : ∀ op choice s answer s', Q op → exec op choice s = some (answer, s') → R s s')
    {p : Program Op Res ε α} {result : Except ε α} (hp : p.Uses Q)
    (h : Runs exec p s result s') : R s s' := by
  induction h with
  | ret value s => exact hrefl s
  | fail error s => exact hrefl s
  | step choice hexec _ ih =>
      obtain ⟨hop, hnext⟩ := hp
      exact htrans _ _ _ (hstep _ choice _ _ _ hop hexec) (ih (hnext _))

end Uses

/-! ## Programs in a truthful environment -/

/-- When every statement is answered as `truth` says, every statement executed
    satisfies `Q` and the program ends as `post` says. -/
def Meets (truth : (op : Op) → Res op → Prop) (Q : Op → Prop) (post : Except ε α → Prop) :
    Program Op Res ε α → Prop
  | .ret value => post (.ok value)
  | .fail error => post (.error error)
  | .step op next => Q op ∧ ∀ answer, truth op answer → (next answer).Meets truth Q post

section Meets

variable {truth : (op : Op) → Res op → Prop} {Q : Op → Prop}

theorem Meets.mono {post post' : Except ε α → Prop} {p : Program Op Res ε α}
    (h : ∀ result, post result → post' result) (hp : p.Meets truth Q post) :
    p.Meets truth Q post' := by
  induction p with
  | ret value => exact h _ hp
  | fail error => exact h _ hp
  | step op next ih =>
      obtain ⟨hop, hnext⟩ := hp
      exact ⟨hop, fun answer htruth => ih answer (hnext answer htruth)⟩

theorem meets_bind {middle : Except ε α → Prop} {post : Except ε β → Prop}
    {p : Program Op Res ε α} {f : α → Program Op Res ε β} (hp : p.Meets truth Q middle)
    (hvalue : ∀ value, middle (.ok value) → (f value).Meets truth Q post)
    (herror : ∀ error, middle (.error error) → post (.error error)) :
    (p >>= f).Meets truth Q post := by
  induction p with
  | ret value => exact hvalue value hp
  | fail error => exact herror error hp
  | step op next ih =>
      obtain ⟨hop, hnext⟩ := hp
      exact ⟨hop, fun answer htruth => ih answer (hnext answer htruth)⟩

theorem meets_attempt {post : Except ε' (Except ε α) → Prop} {p : Program Op Res ε α}
    (hp : p.Meets truth Q fun result => post (.ok result)) :
    (p.attempt : Program Op Res ε' (Except ε α)).Meets truth Q post := by
  induction p with
  | ret value => exact hp
  | fail error => exact hp
  | step op next ih =>
      obtain ⟨hop, hnext⟩ := hp
      exact ⟨hop, fun answer htruth => ih answer (hnext answer htruth)⟩

theorem meets_attempt_bind {tried : Except ε α → Prop} {post : Except ε' β → Prop}
    {p : Program Op Res ε α} {f : Except ε α → Program Op Res ε' β}
    (hp : p.Meets truth Q tried) (hf : ∀ outcome, tried outcome → (f outcome).Meets truth Q post) :
    (p.attempt >>= f).Meets truth Q post := by
  induction p with
  | ret value => exact hf (.ok value) hp
  | fail error => exact hf (.error error) hp
  | step op next ih =>
      obtain ⟨hop, hnext⟩ := hp
      exact ⟨hop, fun answer htruth => ih answer (hnext answer htruth)⟩

theorem meets_raiseIf {failed : Bool} {error : ε} {post : Except ε Unit → Prop}
    (hfailed : failed = true → post (.error error)) (hpassed : failed = false → post (.ok ())) :
    (raiseIf failed error : Program Op Res ε Unit).Meets truth Q post := by
  cases failed with
  | true => exact hfailed rfl
  | false => exact hpassed rfl

theorem meets_raiseIf_bind {failed : Bool} {error : ε} {post : Except ε β → Prop}
    {f : Unit → Program Op Res ε β} (hfailed : failed = true → post (.error error))
    (hpassed : failed = false → (f ()).Meets truth Q post) :
    (raiseIf failed error >>= f).Meets truth Q post := by
  cases failed with
  | true => exact hfailed rfl
  | false => exact hpassed rfl

theorem Uses.meets {p : Program Op Res ε α} (hp : p.Uses Q) :
    p.Meets truth Q fun _ => True := by
  induction p with
  | ret value => trivial
  | fail error => trivial
  | step op next ih =>
      obtain ⟨hop, hnext⟩ := hp
      exact ⟨hop, fun answer _ => ih answer (hnext answer)⟩

/-- An invariant under which every statement is answered truthfully holds at the end of
    a run alone. -/
theorem Meets.alone {exec : (op : Op) → σ → Option (Res op × σ)} {I : σ → Prop}
    (hstep : ∀ op s answer s', Q op → I s → exec op s = some (answer, s') →
      truth op answer ∧ I s') {post : Except ε α → Prop} {p : Program Op Res ε α}
    (hp : p.Meets truth Q post) {result : Except ε α} {s s' : σ}
    (h : p.alone exec s = some (result, s')) (hs : I s) : post result ∧ I s' := by
  induction p generalizing s with
  | ret value =>
      cases h
      exact ⟨hp, hs⟩
  | fail error =>
      cases h
      exact ⟨hp, hs⟩
  | step op next ih =>
      obtain ⟨hop, hnext⟩ := hp
      simp only [Program.alone] at h
      cases hexec : exec op s with
      | none =>
          rw [hexec] at h
          cases h
      | some executed =>
          rw [hexec] at h
          obtain ⟨htruth, hs'⟩ := hstep op s executed.1 executed.2 hop hs hexec
          exact ih executed.1 (hnext executed.1 htruth) h hs'

/-- A statement that the program executes in some truthful run. -/
inductive Issues (truth : (op : Op) → Res op → Prop) :
    Program Op Res ε α → Op → Prop where
  | now (op : Op) (next : Res op → Program Op Res ε α) : Issues truth (.step op next) op
  | later {op op' : Op} {next : Res op → Program Op Res ε α} (answer : Res op)
      (htruth : truth op answer) (hnext : Issues truth (next answer) op') :
      Issues truth (.step op next) op'

theorem Meets.of_issues {post : Except ε α → Prop} {p : Program Op Res ε α} {op : Op}
    (hp : p.Meets truth Q post) (h : p.Issues truth op) : Q op := by
  induction h with
  | now op next => exact hp.1
  | later answer htruth _ ih => exact ih (hp.2 answer htruth)

end Meets

/-! ## Programs with a common end -/

/-- The program executes statements of `Q` and fails or goes on as another one. -/
inductive EndsWith (Q : Op → Prop) : Program Op Res ε α → Program Op Res ε α → Prop where
  | refl (p : Program Op Res ε α) : EndsWith Q p p
  | fail (error : ε) (tail : Program Op Res ε α) : EndsWith Q (.fail error) tail
  | step {op : Op} {next : Res op → Program Op Res ε α} {tail : Program Op Res ε α} (hop : Q op)
      (hnext : ∀ answer, EndsWith Q (next answer) tail) : EndsWith Q (.step op next) tail

section EndsWith

variable {Q : Op → Prop} {tail : Program Op Res ε β}

theorem endsWith_bind {p : Program Op Res ε α} {f : α → Program Op Res ε β} (hp : p.Uses Q)
    (hf : ∀ value, (f value).EndsWith Q tail) : (p >>= f).EndsWith Q tail := by
  induction p with
  | ret value => exact hf value
  | fail error => exact .fail error tail
  | step op next ih =>
      obtain ⟨hop, hnext⟩ := hp
      exact .step hop fun answer => ih answer (hnext answer)

theorem EndsWith.uses {Q' : Op → Prop} {p : Program Op Res ε β} (hp : p.EndsWith Q tail)
    (h : ∀ op, Q op → Q' op) (htail : tail.Uses Q') : p.Uses Q' := by
  induction hp with
  | refl p => exact htail
  | fail error tail => trivial
  | step hop _ ih => exact ⟨h _ hop, fun answer => ih answer htail⟩

/-- If the end cannot fail, a failing run keeps what the statements before it keep. -/
theorem EndsWith.alone_error {exec : (op : Op) → σ → Option (Res op × σ)} {I : σ → Prop}
    (hstep : ∀ op s answer s', Q op → I s → exec op s = some (answer, s') → I s')
    (htail : ∀ s error s', I s → tail.alone exec s ≠ some (.error error, s'))
    {p : Program Op Res ε β} (hp : p.EndsWith Q tail) {error : ε} {s s' : σ}
    (h : p.alone exec s = some (.error error, s')) (hs : I s) : I s' := by
  induction hp generalizing s with
  | refl p => exact absurd h (htail s error s' hs)
  | fail error' tail =>
      obtain ⟨_, rfl⟩ := Prod.mk.inj (Option.some.inj h)
      exact hs
  | @step op next tail hop _ ih =>
      simp only [Program.alone] at h
      cases hexec : exec op s with
      | none =>
          rw [hexec] at h
          cases h
      | some executed =>
          rw [hexec] at h
          exact ih executed.1 htail h (hstep op s executed.1 executed.2 hop hs hexec)

end EndsWith

/-! ## Programs that obey an automaton -/

/-- Every statement is one that the automaton allows in its phase, and a value is
    returned in a phase as `post` says. A program may fail in any phase. -/
def Obeys {φ : Type} (advance : (op : Op) → Res op → φ → Option φ) (post : φ → α → Prop) :
    φ → Program Op Res ε α → Prop
  | phase, .ret value => post phase value
  | _, .fail _ => True
  | phase, .step op next => ∀ answer, ∃ phase', advance op answer phase = some phase' ∧
      (next answer).Obeys advance post phase'

section Obeys

variable {φ : Type} {advance : (op : Op) → Res op → φ → Option φ} {phase : φ}

theorem Obeys.mono {post post' : φ → α → Prop} {p : Program Op Res ε α}
    (h : ∀ phase value, post phase value → post' phase value) (hp : p.Obeys advance post phase) :
    p.Obeys advance post' phase := by
  induction p generalizing phase with
  | ret value => exact h phase value hp
  | fail error => trivial
  | step op next ih =>
      intro answer
      obtain ⟨phase', hadvance, hnext⟩ := hp answer
      exact ⟨phase', hadvance, ih answer hnext⟩

theorem obeys_bind {middle : φ → α → Prop} {post : φ → β → Prop} {p : Program Op Res ε α}
    {f : α → Program Op Res ε β} (hp : p.Obeys advance middle phase)
    (hf : ∀ value phase', middle phase' value → (f value).Obeys advance post phase') :
    (p >>= f).Obeys advance post phase := by
  induction p generalizing phase with
  | ret value => exact hf value phase hp
  | fail error => trivial
  | step op next ih =>
      intro answer
      obtain ⟨phase', hadvance, hnext⟩ := hp answer
      exact ⟨phase', hadvance, ih answer hnext⟩

/-- A program whose statements all keep the phase. -/
theorem obeys_of_uses {Q : Op → Prop} {p : Program Op Res ε α} (hp : p.Uses Q)
    (hkeeps : ∀ op answer, Q op → advance op answer phase = some phase) :
    p.Obeys advance (fun phase' _ => phase' = phase) phase := by
  induction p with
  | ret value => rfl
  | fail error => trivial
  | step op next ih =>
      obtain ⟨hop, hnext⟩ := hp
      intro answer
      exact ⟨phase, hkeeps op answer hop, ih answer (hnext answer)⟩

/-- A program that obeys an automaton runs to its end where every statement that the
    automaton allows can be executed. -/
theorem Obeys.alone_ends {exec : (op : Op) → σ → Option (Res op × σ)} {I : φ → σ → Prop}
    (hstep : ∀ op phase s, I phase s → (∀ answer, (advance op answer phase).isSome = true) →
      ∃ answer s', exec op s = some (answer, s') ∧
        ∀ phase', advance op answer phase = some phase' → I phase' s')
    {post : φ → α → Prop} {p : Program Op Res ε α} (hp : p.Obeys advance post phase) {s : σ}
    (hs : I phase s) : (p.alone exec s).isSome = true := by
  induction p generalizing phase s with
  | ret value => rfl
  | fail error => rfl
  | step op next ih =>
      have hallowed : ∀ answer, (advance op answer phase).isSome = true := by
        intro answer
        obtain ⟨phase', hadvance, _⟩ := hp answer
        rw [hadvance]
        rfl
      obtain ⟨answer, s', hexec, hs'⟩ := hstep op phase s hs hallowed
      obtain ⟨phase', hadvance, hnext⟩ := hp answer
      rw [alone_step exec hexec]
      exact ih answer hnext (hs' phase' hadvance)

end Obeys

end StatementProgram.Program
