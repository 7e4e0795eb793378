import Mathlib.Logic.Basic

/-!
# Statement programs

A request handler talks to its databases, caches and peers one statement at a
time and computes in memory between two statements. A `Program` keeps exactly
that structure: it is a finite tree whose nodes are statements and whose
branches are the possible answers. Everything a handler keeps in local
variables lives in the continuations, so the same program can be run alone or
interleaved with other programs at statement granularity.
-/

namespace StatementProgram

/-- A program over the statements `Op`, where `op` is answered with a `Res op`.
    It ends by returning a value or by raising an error. -/
inductive Program (Op : Type) (Res : Op → Type) (ε α : Type) : Type where
  | ret (value : α)
  | fail (error : ε)
  | step (op : Op) (next : Res op → Program Op Res ε α)

namespace Program

variable {Op : Type} {Res : Op → Type} {ε ε' α β σ : Type}

def bind : Program Op Res ε α → (α → Program Op Res ε β) → Program Op Res ε β
  | .ret value, f => f value
  | .fail error, _ => .fail error
  | .step op next, f => .step op fun answer => (next answer).bind f

instance : Monad (Program Op Res ε) where
  pure := Program.ret
  bind := Program.bind

/-- A single statement. -/
def perform (op : Op) : Program Op Res ε (Res op) := .step op .ret

/-- Raise `error` when the check `failed` holds. -/
def raiseIf (failed : Bool) (error : ε) : Program Op Res ε Unit :=
  if failed then .fail error else .ret ()

/-- Turn a raised error into a value, as a caller does that inspects it. -/
def attempt : Program Op Res ε α → Program Op Res ε' (Except ε α)
  | .ret value => .ret (.ok value)
  | .fail error => .ret (.error error)
  | .step op next => .step op fun answer => (next answer).attempt

/-- Run a program again after an error, at most `attempts` times. -/
def retry (program : Program Op Res ε α) : Nat → Program Op Res ε α
  | 0 => program
  | attempts + 1 => program.attempt >>= fun
      | .ok value => .ret value
      | .error _ => retry program attempts

/-- How a program that has no statement left ends. -/
def outcome? : Program Op Res ε α → Option (Except ε α)
  | .ret value => some (.ok value)
  | .fail error => some (.error error)
  | .step _ _ => none

@[simp] theorem pure_eq (value : α) :
    (pure value : Program Op Res ε α) = .ret value := rfl

@[simp] theorem ret_bind (value : α) (f : α → Program Op Res ε β) :
    (Program.ret value >>= f) = f value := rfl

@[simp] theorem fail_bind (error : ε) (f : α → Program Op Res ε β) :
    ((Program.fail error : Program Op Res ε α) >>= f) = .fail error := rfl

@[simp] theorem step_bind (op : Op) (next : Res op → Program Op Res ε α)
    (f : α → Program Op Res ε β) :
    (Program.step op next >>= f) = .step op fun answer => next answer >>= f := rfl

@[simp] theorem perform_bind (op : Op) (f : Res op → Program Op Res ε β) :
    ((perform op : Program Op Res ε (Res op)) >>= f) = .step op f := rfl

theorem bind_assoc {γ : Type} (p : Program Op Res ε α) (f : α → Program Op Res ε β)
    (g : β → Program Op Res ε γ) : p >>= f >>= g = p >>= fun value => f value >>= g := by
  induction p with
  | ret value => rfl
  | fail error => rfl
  | step op next ih =>
      simp only [step_bind]
      congr 1
      funext answer
      exact ih answer

@[simp] theorem attempt_ret (value : α) :
    (attempt (.ret value : Program Op Res ε α) : Program Op Res ε' _) =
      .ret (.ok value) := rfl

@[simp] theorem attempt_fail (error : ε) :
    (attempt (.fail error : Program Op Res ε α) : Program Op Res ε' _) =
      .ret (.error error) := rfl

@[simp] theorem attempt_step (op : Op) (next : Res op → Program Op Res ε α) :
    (attempt (.step op next) : Program Op Res ε' _) =
      .step op fun answer => (next answer).attempt := rfl

/-! ## Running a program alone -/

/-- Run a program without interference. The result is `none` when a statement
    cannot be executed. -/
def alone (exec : (op : Op) → σ → Option (Res op × σ)) :
    Program Op Res ε α → σ → Option (Except ε α × σ)
  | .ret value, s => some (.ok value, s)
  | .fail error, s => some (.error error, s)
  | .step op next, s =>
      match exec op s with
      | none => none
      | some (answer, s') => (next answer).alone exec s'

variable (exec : (op : Op) → σ → Option (Res op × σ))

@[simp] theorem alone_ret (value : α) (s : σ) :
    (.ret value : Program Op Res ε α).alone exec s = some (.ok value, s) := rfl

@[simp] theorem alone_fail (error : ε) (s : σ) :
    (.fail error : Program Op Res ε α).alone exec s = some (.error error, s) := rfl

theorem alone_step {op : Op} {next : Res op → Program Op Res ε α} {s s' : σ}
    {answer : Res op} (h : exec op s = some (answer, s')) :
    (Program.step op next).alone exec s = (next answer).alone exec s' := by
  simp only [alone, h]

theorem alone_bind (p : Program Op Res ε α) (f : α → Program Op Res ε β) (s : σ) :
    (p >>= f).alone exec s =
      match p.alone exec s with
      | none => none
      | some (.ok value, s') => (f value).alone exec s'
      | some (.error error, s') => some (.error error, s') := by
  induction p generalizing s with
  | ret value => rfl
  | fail error => rfl
  | step op next ih =>
      simp only [step_bind, alone]
      cases h : exec op s with
      | none => rfl
      | some result => exact ih result.1 result.2

/-- A sequence returns a value when both parts do. -/
theorem alone_bind_ok {p : Program Op Res ε α} {f : α → Program Op Res ε β} {s s' : σ}
    {value : β} :
    (p >>= f).alone exec s = some (.ok value, s') ↔
      ∃ first s₁, p.alone exec s = some (.ok first, s₁) ∧
        (f first).alone exec s₁ = some (.ok value, s') := by
  rw [alone_bind]
  cases p.alone exec s with
  | none => simp
  | some result =>
      obtain ⟨outcome, s₁⟩ := result
      cases outcome with
      | error error => simp
      | ok first =>
          constructor
          · intro h
            exact ⟨first, s₁, rfl, h⟩
          · rintro ⟨first', s₂, heq, h⟩
            cases heq
            exact h

theorem alone_attempt (p : Program Op Res ε α) (s : σ) :
    (p.attempt : Program Op Res ε' (Except ε α)).alone exec s =
      (p.alone exec s).map fun result => (.ok result.1, result.2) := by
  induction p generalizing s with
  | ret value => rfl
  | fail error => rfl
  | step op next ih =>
      simp only [attempt_step, alone]
      cases h : exec op s with
      | none => rfl
      | some result => exact ih result.1 result.2

/-- Two states on which every statement acts alike carry a program alike. -/
theorem alone_rel {τ : Type} {exec : (op : Op) → σ → Option (Res op × σ)}
    {exec' : (op : Op) → τ → Option (Res op × τ)} {R : σ → τ → Prop}
    (hstep : ∀ op s t, R s t →
      Option.Rel (fun x y => x.1 = y.1 ∧ R x.2 y.2) (exec op s) (exec' op t))
    (p : Program Op Res ε α) {s : σ} {t : τ} (h : R s t) :
    Option.Rel (fun x y => x.1 = y.1 ∧ R x.2 y.2) (p.alone exec s) (p.alone exec' t) := by
  induction p generalizing s t with
  | ret value => exact .some ⟨rfl, h⟩
  | fail error => exact .some ⟨rfl, h⟩
  | step op next ih =>
      have hop := hstep op s t h
      simp only [alone]
      generalize exec op s = x at hop ⊢
      generalize exec' op t = y at hop ⊢
      cases hop with
      | none => exact .none
      | some hnext =>
          simp only [hnext.left]
          exact ih _ hnext.right

end Program

end StatementProgram
