import Mathlib.Data.List.Basic

/-!
# Computations that fail and keep their state

A computation over a state that may raise an error keeps, unlike a transaction,
what it has done to the state before it raises. A triple therefore says what
holds of the state after both ends. `Keeps` is the case in which one property of
the state survives whatever the computation does.
-/

namespace FallibleState

abbrev Fallible (σ ε : Type) := ExceptT ε (StateM σ)

variable {σ ε α β : Type}

def run (m : Fallible σ ε α) (s : σ) : Except ε α × σ := m s

/-- A change of the state that cannot fail. -/
def change (f : σ → σ) : Fallible σ ε Unit := fun s => (.ok (), f s)

def observe (f : σ → α) : Fallible σ ε α := fun s => (.ok (f s), s)

def raiseIf (failed : Bool) (error : ε) : Fallible σ ε Unit :=
  if failed then throw error else pure ()

@[simp] theorem run_pure (value : α) (s : σ) :
    run (pure value : Fallible σ ε α) s = (.ok value, s) := rfl

@[simp] theorem run_throw (error : ε) (s : σ) :
    run (throw error : Fallible σ ε α) s = (.error error, s) := rfl

@[simp] theorem run_change (f : σ → σ) (s : σ) :
    run (change f : Fallible σ ε Unit) s = (.ok (), f s) := rfl

@[simp] theorem run_observe (f : σ → α) (s : σ) :
    run (observe f : Fallible σ ε α) s = (.ok (f s), s) := rfl

@[simp] theorem run_raiseIf (failed : Bool) (error : ε) (s : σ) :
    run (raiseIf failed error : Fallible σ ε Unit) s =
      if failed then (.error error, s) else (.ok (), s) := by
  cases failed with
  | false => rfl
  | true => rfl

theorem run_bind (m : Fallible σ ε α) (f : α → Fallible σ ε β) (s : σ) :
    run (m >>= f) s =
      match run m s with
      | (.ok value, s') => run (f value) s'
      | (.error error, s') => (.error error, s') := by
  change (ExceptT.bindCont f (m s).1) (m s).2 = _
  unfold run
  cases hm : m s with
  | mk result s' =>
      cases result with
      | ok value => rfl
      | error error => rfl

theorem run_tryCatch (m : Fallible σ ε α) (handler : ε → Fallible σ ε α) (s : σ) :
    run (tryCatch m handler) s =
      match run m s with
      | (.ok value, s') => (.ok value, s')
      | (.error error, s') => run (handler error) s' := by
  change (match (m s).1 with
    | .ok value => (pure (.ok value) : StateM σ (Except ε α))
    | .error error => handler error) (m s).2 = _
  unfold run
  cases hm : m s with
  | mk result s' =>
      cases result with
      | ok value => rfl
      | error error => rfl

/-- From a state with `pre` the computation ends with a value in a state with
    `post`, or with an error in a state with `raised`. -/
def Triple (pre : σ → Prop) (m : Fallible σ ε α) (post : α → σ → Prop)
    (raised : ε → σ → Prop) : Prop :=
  ∀ s, pre s →
    match run m s with
    | (.ok value, s') => post value s'
    | (.error error, s') => raised error s'

namespace Triple

variable {pre : σ → Prop} {post : α → σ → Prop} {raised : ε → σ → Prop}

theorem pure {value : α} (h : ∀ s, pre s → post value s) :
    Triple pre (Pure.pure value : Fallible σ ε α) post raised := h

theorem throw {error : ε} (h : ∀ s, pre s → raised error s) :
    Triple pre (MonadExcept.throw error : Fallible σ ε α) post raised := h

theorem change {f : σ → σ} {post : Unit → σ → Prop} (h : ∀ s, pre s → post () (f s)) :
    Triple pre (FallibleState.change f : Fallible σ ε Unit) post raised := h

theorem observe {f : σ → α} (h : ∀ s, pre s → post (f s) s) :
    Triple pre (FallibleState.observe f : Fallible σ ε α) post raised := h

theorem bind {m : Fallible σ ε α} {f : α → Fallible σ ε β} (middle : α → σ → Prop)
    {post : β → σ → Prop} (hm : Triple pre m middle raised)
    (hf : ∀ value, Triple (middle value) (f value) post raised) :
    Triple pre (m >>= f) post raised := by
  intro s hs
  rw [run_bind]
  have h := hm s hs
  cases hrun : run m s with
  | mk result s' =>
      rw [hrun] at h
      cases result with
      | ok value => exact hf value s' h
      | error error => exact h

theorem tryCatch {m : Fallible σ ε α} {handler : ε → Fallible σ ε α}
    (middle : ε → σ → Prop) (hm : Triple pre m post middle)
    (hhandler : ∀ error, Triple (middle error) (handler error) post raised) :
    Triple pre (MonadExcept.tryCatch m handler) post raised := by
  intro s hs
  rw [run_tryCatch]
  have h := hm s hs
  cases hrun : run m s with
  | mk result s' =>
      rw [hrun] at h
      cases result with
      | ok value => exact h
      | error error => exact hhandler error s' h

theorem mono {m : Fallible σ ε α} {pre' : σ → Prop} {post' : α → σ → Prop}
    {raised' : ε → σ → Prop} (h : Triple pre' m post' raised')
    (hpre : ∀ s, pre s → pre' s) (hpost : ∀ value s, post' value s → post value s)
    (hraised : ∀ error s, raised' error s → raised error s) :
    Triple pre m post raised := by
  intro s hs
  have hrun := h s (hpre s hs)
  cases hresult : run m s with
  | mk result s' =>
      rw [hresult] at hrun
      cases result with
      | ok value => exact hpost value s' hrun
      | error error => exact hraised error s' hrun

theorem raiseIf {failed : Bool} {error : ε} {post : Unit → σ → Prop}
    (hfailed : failed = true → ∀ s, pre s → raised error s)
    (hpassed : failed = false → ∀ s, pre s → post () s) :
    Triple pre (FallibleState.raiseIf failed error) post raised := by
  cases failed with
  | false => exact hpassed rfl
  | true => exact hfailed rfl

end Triple

/-- The computation keeps `inv`, whichever way it ends. -/
def Keeps (inv : σ → Prop) (m : Fallible σ ε α) : Prop :=
  Triple inv m (fun _ => inv) fun _ => inv

namespace Keeps

variable {inv : σ → Prop}

theorem pure (value : α) : Keeps inv (Pure.pure value : Fallible σ ε α) := fun _ hs => hs

theorem throw (error : ε) : Keeps inv (MonadExcept.throw error : Fallible σ ε α) :=
  fun _ hs => hs

theorem observe (f : σ → α) : Keeps inv (FallibleState.observe f : Fallible σ ε α) :=
  fun _ hs => hs

theorem change {f : σ → σ} (h : ∀ s, inv s → inv (f s)) :
    Keeps inv (FallibleState.change f : Fallible σ ε Unit) := h

theorem bind {m : Fallible σ ε α} {f : α → Fallible σ ε β} (hm : Keeps inv m)
    (hf : ∀ value, Keeps inv (f value)) : Keeps inv (m >>= f) :=
  Triple.bind (fun _ => inv) hm hf

theorem raiseIf (failed : Bool) (error : ε) :
    Keeps inv (FallibleState.raiseIf failed error) :=
  Triple.raiseIf (fun _ _ hs => hs) fun _ _ hs => hs

theorem ite {condition : Prop} [Decidable condition] {m m' : Fallible σ ε α}
    (hm : Keeps inv m) (hm' : Keeps inv m') : Keeps inv (if condition then m else m') := by
  split
  · exact hm
  · exact hm'

theorem forM {ι : Type} {items : List ι} {f : ι → Fallible σ ε PUnit}
    (h : ∀ item, Keeps inv (f item)) : Keeps inv (items.forM f) := by
  induction items with
  | nil => exact Keeps.pure ()
  | cons item items ih =>
      change Keeps inv (f item >>= fun _ => items.forM f)
      exact Keeps.bind (h item) fun _ => ih

end Keeps

end FallibleState
